import Persona.Grammar.Document
import Persona.Failure
import Persona.Json.Reader
import Persona.Json.Printer

/-!
# The structured target

A personality as a JSON document that can be read back. Modifiers and the parts
of rules are stored as document text; everything else has a field of its own.

Reading matches the names of fields without regard to case and ignores fields it
does not know. `null` leaves a field as it was. When a field is repeated the last
value counts; a repeated list is laid over the earlier one, so that an entry keeps
what the later entry at its place does not mention. A shorter list only hides the
entries behind its end: a longer one that follows is laid over them again. An empty
list and `null` forget them.
-/

namespace Persona.Structured

/-- A list that may be laid over an earlier one: its items, and the earlier items that it
hides. -/
structure Layered (α : Type) where
  items : List α := []
  hidden : List α := []

/-- A trait, its modifiers as document text. -/
structure TraitEntry where
  name : Text := []
  strength : Binary64 := .zero
  modifiers : Layered Text := {}

/-- A topic, its level as a word. -/
structure TopicEntry where
  name : Text := []
  level : Text := []

/-- A connection. -/
structure ConnectionEntry where
  source : Text := []
  target : Text := []
  strength : Binary64 := .zero
  rate : Option Binary64 := none

/-- A domain. -/
structure DomainEntry where
  name : Text := []
  topics : Layered TopicEntry := {}
  connections : Layered ConnectionEntry := {}

/-- A behavior, both parts as document text. -/
structure BehaviorEntry where
  condition : Text := []
  action : Text := []

/-- An evolution rule, both parts as document text. -/
structure EvolutionEntry where
  trigger : Text := []
  effect : Text := []

/-- The shape of the document. -/
structure Document where
  name : Text := []
  traits : Layered TraitEntry := {}
  knowledge : Layered DomainEntry := {}
  behaviors : Layered BehaviorEntry := {}
  evolution : Layered EvolutionEntry := {}

/-- The entry of a trait. -/
def TraitEntry.ofTrait (t : Trait) : Except Missing TraitEntry := do
  let modifiers ← t.modifiers.mapM writeModifier
  return ⟨t.name, t.strength, { items := modifiers }⟩

/-- The entry of a domain. -/
def DomainEntry.ofDomain (d : Domain) : DomainEntry :=
  { name := d.name,
    topics := { items := d.topics.map fun t => ⟨t.name, t.level.text⟩ },
    connections :=
      { items := d.connections.map fun c => ⟨c.source, c.target, c.strength, c.rate⟩ } }

/-- The entry of a behavior. -/
def BehaviorEntry.ofRule (r : BehaviorRule) : Except Missing BehaviorEntry := do
  let condition ← writeCondition r.condition
  let action ← writeAction r.action
  return ⟨condition, action⟩

/-- The entry of an evolution rule. -/
def EvolutionEntry.ofRule (r : EvolutionRule) : Except Missing EvolutionEntry := do
  let trigger ← writeTrigger r.trigger
  let effect ← writeEffect r.effect
  return ⟨trigger, effect⟩

/-- The document of a personality. -/
def Document.ofPersonality (p : Personality) : Except Missing Document := do
  let traits ← p.traits.mapM TraitEntry.ofTrait
  let behaviors ← p.behaviors.mapM BehaviorEntry.ofRule
  let evolution ← p.evolution.mapM EvolutionEntry.ofRule
  return { name := p.name, traits := { items := traits },
           knowledge := { items := p.knowledge.map DomainEntry.ofDomain },
           behaviors := { items := behaviors }, evolution := { items := evolution } }

/-- A number; JSON has none for NaN and the infinities. -/
def numberJson (x : Binary64) : Except EmitError Json :=
  if x.isFinite then .ok (.number (Layout.structured.write x)) else .error
    (.unsupportedNumber x)

/-- A trait. -/
def TraitEntry.toJson (t : TraitEntry) : Except EmitError Json := do
  let strength ← numberJson t.strength
  return .object [("name", .string t.name), ("strength", strength),
    ("modifiers", .list (t.modifiers.items.map .string))]

/-- A topic. -/
def TopicEntry.toJson (t : TopicEntry) : Json :=
  .object [("name", .string t.name), ("level", .string t.level)]

/-- A connection; a rate that is not there is left out. -/
def ConnectionEntry.toJson (c : ConnectionEntry) : Except EmitError Json := do
  let strength ← numberJson c.strength
  let fields : List (Text × Json) :=
    [("from_domain", .string c.source), ("to_domain", .string c.target),
      ("strength", strength)]
  match c.rate with
  | none => return .object fields
  | some r =>
    let rate ← numberJson r
    return .object (fields ++ [(Text.ofString "evolution_rate", rate)])

/-- A domain. -/
def DomainEntry.toJson (d : DomainEntry) : Except EmitError Json := do
  let connections ← d.connections.items.mapM ConnectionEntry.toJson
  return .object [("name", .string d.name),
    ("topics", .list (d.topics.items.map TopicEntry.toJson)),
    ("connections", .list connections)]

/-- A behavior. -/
def BehaviorEntry.toJson (b : BehaviorEntry) : Json :=
  .object [("condition", .string b.condition), ("action", .string b.action)]

/-- An evolution rule. -/
def EvolutionEntry.toJson (e : EvolutionEntry) : Json :=
  .object [("trigger", .string e.trigger), ("effect", .string e.effect)]

/-- The whole document. -/
def Document.toJson (d : Document) : Except EmitError Json := do
  let traits ← d.traits.items.mapM TraitEntry.toJson
  let knowledge ← d.knowledge.items.mapM DomainEntry.toJson
  return .object [("name", .string d.name), ("traits", .list traits),
    ("knowledge", .list knowledge),
    ("behaviors", .list (d.behaviors.items.map BehaviorEntry.toJson)),
    ("evolution", .list (d.evolution.items.map EvolutionEntry.toJson))]

/-- The document of a personality as text; without indentation it is one line. -/
def emit (p : Personality) (indent : Text) : Except EmitError Text := do
  let document ← (Document.ofPersonality p).mapError .missing
  let json ← document.toJson
  return Json.write indent json

/-- The form in which names of fields are compared: capitals for ASCII letters, and for
the two other characters that fold to one. -/
def foldedName (name : Text) : Text :=
  name.mapCodes fun code =>
    if 97 ≤ code && code ≤ 122 then code - 32
    else if code = 0x17F then 83
    else if code = 0x212A then 75
    else code

/-- A text, or what was there before. -/
def readText (old : Text) : Json → Option Text
  | .null => some old
  | .string value => some value
  | _ => none

/-- A number, or what was there before. -/
def readNumber (old : Binary64) : Json → Option Binary64
  | .null => some old
  | .number literal => Binary64.read? literal
  | _ => none

/-- A number that may be absent. -/
def readOptional : Json → Option (Option Binary64)
  | .null => some none
  | .number literal => (Binary64.read? literal).map some
  | _ => none

/-- Items laid over earlier ones; an item without an earlier one starts from `blank`. The
earlier items that are left over are hidden. -/
def readItems {α : Type} (blank : α) (read : α → Json → Option α) :
    (old : List α) → List Json →
    Option (Layered α)
  | old, [] => some { hidden := old }
  | old, item :: items => do
    let first ← read (old.head?.getD blank) item
    let others ← readItems blank read old.tail items
    return { others with items := first :: others.items }

/-- A list. -/
def readList {α : Type} (blank : α) (read : α → Json → Option α) (old : Layered α) :
    Json → Option (Layered α)
  | .null | .list [] => some {}
  | .list items => readItems blank read (old.items ++ old.hidden) items
  | _ => none

/-- The fields of an object, one after the other; `field` reads the one with a
folded name. -/
def readFields {α : Type} (field : α → Text → Json → Option α) (old : α) :
    List (Text × Json) → Option α
  | [] => some old
  | (name, value) :: rest => do
    let next ← field old (foldedName name) value
    readFields field next rest

/-- An object, or what was there before. -/
def readObject {α : Type} (field : α → Text → Json → Option α) (old : α) : Json → Option α
  | .null => some old
  | .object fields => readFields field old fields
  | _ => none

/-- A trait. -/
def readTrait : TraitEntry → Json → Option TraitEntry :=
  readObject fun old name value =>
    if name = "NAME" then (readText old.name value).map fun x => { old with name := x }
    else if name = "STRENGTH" then
      (readNumber old.strength value).map fun x => { old with strength := x }
    else if name = "MODIFIERS" then
      (readList [] readText old.modifiers value).map fun x => { old with modifiers := x }
    else some old

/-- A topic. -/
def readTopic : TopicEntry → Json → Option TopicEntry :=
  readObject fun old name value =>
    if name = "NAME" then (readText old.name value).map fun x => { old with name := x }
    else if name = "LEVEL" then (readText old.level value).map fun x => { old with level := x }
    else some old

/-- A connection. -/
def readConnection : ConnectionEntry → Json → Option ConnectionEntry :=
  readObject fun old name value =>
    if name = "FROM_DOMAIN" then (readText old.source value).map fun x =>
      { old with source := x }
    else if name = "TO_DOMAIN" then (readText old.target value).map fun x =>
      { old with target := x }
    else if name = "STRENGTH" then
      (readNumber old.strength value).map fun x => { old with strength := x }
    else if name = "EVOLUTION_RATE" then (readOptional value).map fun x =>
      { old with rate := x }
    else some old

/-- A domain. -/
def readDomain : DomainEntry → Json → Option DomainEntry :=
  readObject fun old name value =>
    if name = "NAME" then (readText old.name value).map fun x => { old with name := x }
    else if name = "TOPICS" then
      (readList {} readTopic old.topics value).map fun x => { old with topics := x }
    else if name = "CONNECTIONS" then
      (readList {} readConnection old.connections value).map fun x =>
        { old with connections := x }
    else some old

/-- A behavior. -/
def readBehavior : BehaviorEntry → Json → Option BehaviorEntry :=
  readObject fun old name value =>
    if name = "CONDITION" then (readText old.condition value).map fun x =>
      { old with condition := x }
    else if name = "ACTION" then (readText old.action value).map fun x =>
      { old with action := x }
    else some old

/-- An evolution rule. -/
def readEvolution : EvolutionEntry → Json → Option EvolutionEntry :=
  readObject fun old name value =>
    if name = "TRIGGER" then (readText old.trigger value).map fun x =>
      { old with trigger := x }
    else if name = "EFFECT" then (readText old.effect value).map fun x =>
      { old with effect := x }
    else some old

/-- The whole document. -/
def readDocument : Document → Json → Option Document :=
  readObject fun old name value =>
    if name = "NAME" then (readText old.name value).map fun x => { old with name := x }
    else if name = "TRAITS" then
      (readList {} readTrait old.traits value).map fun x => { old with traits := x }
    else if name = "KNOWLEDGE" then
      (readList {} readDomain old.knowledge value).map fun x => { old with knowledge := x }
    else if name = "BEHAVIORS" then
      (readList {} readBehavior old.behaviors value).map fun x => { old with behaviors := x }
    else if name = "EVOLUTION" then
      (readList {} readEvolution old.evolution value).map fun x => { old with evolution := x }
    else some old

/-- Read a stored part; a part that cannot be read is reported with where it was found. -/
def stored {α : Type} (place : Text) (read : Text → Logged ParseError α) (text : Text) :
    Logged Failure α :=
  (read text).mapError fun e => .within (place ++ " " ++ text.quoted) (.malformed e)

/-- The trait of an entry. -/
def TraitEntry.toTrait (t : TraitEntry) : Logged Failure Trait := do
  let modifiers ← t.modifiers.items.mapM
    (stored ("trait " ++ t.name.quoted ++ ": modifier") Fragment.modifier)
  return ⟨t.name, t.strength, modifiers.map some⟩

/-- The topic of an entry of a domain. -/
def TopicEntry.toTopic (domain : Text) (t : TopicEntry) : Logged Failure Topic :=
  match Level.ofWord? t.level with
  | some level => pure ⟨t.name, level⟩
  | none => .fail (.unknownLevel domain t.name t.level)

/-- The domain of an entry. -/
def DomainEntry.toDomain (d : DomainEntry) : Logged Failure Domain := do
  let topics ← d.topics.items.mapM (TopicEntry.toTopic d.name)
  return ⟨d.name, topics, d.connections.items.map fun c =>
    ⟨c.source, c.target, c.strength, c.rate⟩⟩

/-- The behavior of the entry at a position. -/
def BehaviorEntry.toRule (position : Nat) (b : BehaviorEntry) :
    Logged Failure BehaviorRule := do
  let place := "behavior " ++ Text.ofNat position
  let condition ← stored (place ++ ": condition") Fragment.condition b.condition
  let action ← stored (place ++ ": action") Fragment.action b.action
  return ⟨some condition, some action⟩

/-- The evolution rule of the entry at a position. -/
def EvolutionEntry.toRule (position : Nat) (e : EvolutionEntry) :
    Logged Failure EvolutionRule := do
  let place := "evolution rule " ++ Text.ofNat position
  let trigger ← stored (place ++ ": trigger") Fragment.trigger e.trigger
  let effect ← stored (place ++ ": effect") Fragment.effect e.effect
  return ⟨some trigger, some effect⟩

/-- The personality of a document. -/
def Document.toPersonality (d : Document) : Logged Failure Personality := do
  let traits ← d.traits.items.mapM TraitEntry.toTrait
  let knowledge ← d.knowledge.items.mapM DomainEntry.toDomain
  let behaviors ← d.behaviors.items.zipIdx.mapM fun (b, i) => b.toRule i
  let evolution ← d.evolution.items.zipIdx.mapM fun (e, i) => e.toRule i
  return ⟨d.name, traits, knowledge, behaviors, evolution⟩

/-- Read a document back into a personality, which is not validated. -/
def decode (text : Text) : Logged Failure Personality :=
  match (Json.read? text).bind (readDocument {}) with
  | some document => document.toPersonality
  | none => .fail .malformedDocument

end Persona.Structured
