import Persona.Personality.Printer
import Persona.Personality.Signature
import Persona.Text.Quoted

/-!
# Problems and advice

What an analysis finds: problems, which make a personality unfit for compiling,
and advice, which never does. A finding holds what it is about; its name, its
subject and its wording follow from that.
-/

namespace Persona

/-- Where a domain was mentioned. -/
inductive Mention where
  | connection | timeTrigger | unlockEffect | connectEffect
deriving DecidableEq, Repr

/-- Something that makes a personality unfit for compiling. -/
inductive Problem where
  | circular (path : List Text)
  | traitConflict (trait : Text) (context : Option Context)
  | modifierConflict (trait : Text) (first second : Binary64) (unit : TimeUnit)
  | undetermined (trigger : Option Trigger) (effects : Nat)
  | unreachable (trait : Text) (adopted : Bool) (rule : Text)
  | unknownDomain (name : Text) (mention : Mention)
  | contradiction (value : Text) (first second : Action)
  | styleConflict (key first second : Text)
  | dangerous (trait : Text) (delta : Binary64)
  | outOfBounds (trait : Text) (strength delta : Binary64)
  | unknownConnection (source target : Text)
  | duplicateTrait (name : Text)
deriving DecidableEq, Repr

/-- Something worth mentioning that does no harm. -/
inductive Advice where
  | unusedDomain (name : Text)
  | weakConnection (source target : Text) (strength : Binary64)
  | redundantModifiers (trait : Text) (decays : Nat)
  | suspicious (trait : Text) (delta : Binary64)
  | unknownTarget (target user : Text)
  | selfReference (trait : Text) (modifier : Modifier)
  | emptyDomain (name : Text)
deriving DecidableEq, Repr

/-- A finding as one line: its name, its subject and, unless it is empty, its detail. -/
def findingText (kind subject detail : Text) : Text :=
  let head := kind ++ "(" ++ subject ++ ")"
  if detail.isEmpty then head else head ++ ": " ++ detail

/-- An edge of the connection graph as text. -/
def edgeText (source target : Text) : Text := source ++ " -> " ++ target

/-- How a mention is worded. -/
def Mention.text : Mention → Text
  | .connection => "a connection"
  | .timeTrigger => "a time_in trigger"
  | .unlockEffect => "an unlock effect"
  | .connectEffect => "a connect effect"

/-- The largest adjustment that is not dangerous. -/
def dangerousDelta : Binary64 := Decimal.toBinary64 false ⟨8, -1⟩

namespace Problem

/-- The names of the problems, in the order in which reports list them. -/
def kinds : List Text :=
  ["CircularDependency", "TraitConflict", "ModifierConflict", "NonDeterministicEvolution",
   "UnreachableBehavior", "InvalidDomainReference", "ContradictoryBehavior",
   "ConflictingStyle", "DangerousEvolution", "EvolutionOutOfBounds",
   "InvalidEvolutionConnection", "DuplicateTrait"]

/-- The name of a problem. -/
def kind : Problem → Text
  | .circular _ => "CircularDependency"
  | .traitConflict _ _ => "TraitConflict"
  | .modifierConflict _ _ _ _ => "ModifierConflict"
  | .undetermined _ _ => "NonDeterministicEvolution"
  | .unreachable _ _ _ => "UnreachableBehavior"
  | .unknownDomain _ _ => "InvalidDomainReference"
  | .contradiction _ _ _ => "ContradictoryBehavior"
  | .styleConflict _ _ _ => "ConflictingStyle"
  | .dangerous _ _ => "DangerousEvolution"
  | .outOfBounds _ _ _ => "EvolutionOutOfBounds"
  | .unknownConnection _ _ => "InvalidEvolutionConnection"
  | .duplicateTrait _ => "DuplicateTrait"

/-- What a problem is about. -/
def subject : Problem → Text
  | .circular path => path.head?.getD []
  | .traitConflict trait _ => trait
  | .modifierConflict trait _ _ _ => trait
  | .undetermined trigger _ => optionalSignature Trigger.signature trigger
  | .unreachable trait _ _ => trait
  | .unknownDomain name _ => name
  | .contradiction value _ _ => value
  | .styleConflict key _ _ => key
  | .dangerous trait _ => trait
  | .outOfBounds trait _ _ => trait
  | .unknownConnection source target => edgeText source target
  | .duplicateTrait name => name

/-- The names along a cycle, the first one repeated at the end. -/
def path : Problem → List Text
  | .circular path => path
  | _ => []

/-- What is wrong. -/
def detail : Problem → Text
  | .circular path => Text.join " -> " path
  | .traitConflict _ context =>
    "when and unless on " ++ optionalSignature Context.signature context
  | .modifierConflict _ first second unit =>
    "decays at " ++ first.text ++ " and " ++ second.text ++ " per " ++ unit.text
  | .undetermined _ effects => Text.ofNat effects ++ " different effects for the same trigger"
  | .unreachable _ adopted rule =>
    let place : Text := if adopted then "new behavior " else []
    "condition on unknown trait in " ++ place ++ rule.quoted
  | .unknownDomain _ mention => "referenced by " ++ mention.text
  | .contradiction _ first second => first.write ++ " conflicts with " ++ second.write
  | .styleConflict _ first second => "set to " ++ first.quoted ++ " and " ++ second.quoted
  | .dangerous _ delta => "delta " ++ delta.text ++ " exceeds " ++ dangerousDelta.text
  | .outOfBounds _ strength delta =>
    let sign : Text := if delta.lt .zero then "-" else "+"
    strength.text ++ " " ++ sign ++ " " ++ delta.abs.text ++ " leaves [0, 1]"
  | .unknownConnection _ _ => "connect effect on an unknown domain"
  | .duplicateTrait _ => "trait declared more than once"

/-- The line that reports a problem. -/
def text (p : Problem) : Text := findingText p.kind p.subject p.detail

end Problem

namespace Advice

/-- The names of the advice, in the order in which reports list them. -/
def kinds : List Text :=
  ["UnusedDomain", "WeakConnection", "RedundantModifier", "SuspiciousEvolutionRate",
   "UnknownModifierTarget", "SelfReference", "EmptyDomain"]

/-- The name of an advice. -/
def kind : Advice → Text
  | .unusedDomain _ => "UnusedDomain"
  | .weakConnection _ _ _ => "WeakConnection"
  | .redundantModifiers _ _ => "RedundantModifier"
  | .suspicious _ _ => "SuspiciousEvolutionRate"
  | .unknownTarget _ _ => "UnknownModifierTarget"
  | .selfReference _ _ => "SelfReference"
  | .emptyDomain _ => "EmptyDomain"

/-- What an advice is about. -/
def subject : Advice → Text
  | .unusedDomain name => name
  | .weakConnection source target _ => edgeText source target
  | .redundantModifiers trait _ => trait
  | .suspicious trait _ => trait
  | .unknownTarget target _ => target
  | .selfReference trait _ => trait
  | .emptyDomain name => name

/-- What is worth mentioning. The modifiers that refer to a trait have no part that could
be missing. -/
def detail : Advice → Text
  | .unusedDomain _ => "no connection targets this domain"
  | .weakConnection _ _ strength => "strength " ++ strength.text
  | .redundantModifiers _ decays => Text.ofNat decays ++ " decay modifiers"
  | .suspicious _ delta => "delta " ++ delta.text
  | .unknownTarget _ user => "used by " ++ user
  | .selfReference _ modifier => modifier.write.toOption.getD []
  | .emptyDomain _ => "no topics"

/-- The line that reports an advice. -/
def text (a : Advice) : Text := findingText a.kind a.subject a.detail

end Advice

end Persona
