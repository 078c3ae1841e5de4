import Persona.Failure

/-!
# The Cypher target

One query that creates a graph: a root for the personality and a node for every
trait, domain, behavior and evolution rule, each linked from the root, and an
edge for every connection. Nodes are called by their position. A topic is a
property of its domain under a key of its own, so that no topic can take the
place of the domain's name.
-/

namespace Persona.Cypher

/-- A string literal. -/
def literal (text : Text) : Text :=
  "'" ++ (text.replaceByte 92 "\\\\").replaceByte 39 "\\'" ++ "'"

/-- The property key of a topic. -/
def topicKey (topic : Text) : Text :=
  "\x60topic." ++ topic.replaceByte 96 "\x60\x60" ++ "\x60"

/-- The variable of a node: a letter for its kind and its position. -/
def nodeName (letter : Text) (position : Nat) : Text := letter ++ Text.ofNat position

/-- Create a node. -/
def createNode (node label properties : Text) : Text :=
  "CREATE (" ++ node ++ ":" ++ label ++ " \x7b" ++ properties ++ "\x7d)\n"

/-- Link a node from the root. -/
def link (relation node : Text) : Text :=
  "CREATE (p)-[:" ++ relation ++ "]->(" ++ node ++ ")\n"

/-- A trait. -/
def trait (position : Nat) (t : Trait) : Except EmitError Text := do
  let modifiers ← (t.modifiers.mapM writeModifier).mapError .missing
  let v := nodeName "t" position
  return createNode v "Trait" ("name: " ++ literal t.name ++ ", strength: " ++
    t.strength.text ++
    ", modifiers: [" ++ Text.join ", " (modifiers.map literal) ++ "]") ++ link "HAS_TRAIT" v

/-- A domain. -/
def domain (position : Nat) (d : Domain) : Text :=
  let v := nodeName "d" position
  let topics := d.topics.map fun t => topicKey t.name ++ ": " ++ literal t.level.text
  createNode v "Domain" (Text.join ", " (("name: " ++ literal d.name) :: topics)) ++
    link "KNOWS" v

/-- The variable of the last domain with a name. -/
def domainVariable? (p : Personality) (name : Text) : Option Text :=
  (p.knowledge.zipIdx.reverse.find? fun (d, _) => d.name == name).map fun (_, i) =>
    nodeName "d" i

/-- A connection between two domains. -/
def connection (p : Personality) (c : Connection) : Except EmitError Text :=
  match domainVariable? p c.source, domainVariable? p c.target with
  | some source, some target =>
    let rate : Text := match c.rate with
      | some r => ", evolution_rate: " ++ r.text
      | none => []
    .ok ("CREATE (" ++ source ++ ")-[:CONNECTS_TO \x7bstrength: " ++ c.strength.text ++ rate ++
      "\x7d]->(" ++ target ++ ")\n")
  | _, _ => .error (.unknownDomain c.source c.target)

/-- A behavior. -/
def behavior (position : Nat) (r : BehaviorRule) : Except EmitError Text := do
  let condition ← (writeCondition r.condition).mapError .missing
  let action ← (writeAction r.action).mapError .missing
  let v := nodeName "b" position
  return createNode v "Behavior" ("condition: " ++ literal condition ++ ", action: " ++
    literal action) ++
    link "EXHIBITS" v

/-- An evolution rule. -/
def evolution (position : Nat) (r : EvolutionRule) : Except EmitError Text := do
  let trigger ← (writeTrigger r.trigger).mapError .missing
  let effect ← (writeEffect r.effect).mapError .missing
  let v := nodeName "e" position
  return createNode v "Evolution" ("trigger: " ++ literal trigger ++ ", effect: " ++
    literal effect) ++
    link "EVOLVES_BY" v

/-- The entries of a list, numbered from zero. -/
def numbered {α : Type} (entry : Nat → α → Except EmitError Text) (items : List α) :
    Except EmitError Text := do
  let texts ← items.zipIdx.mapM fun (item, position) => entry position item
  return texts.flatten

/-- The query for a personality. The line feed of its last line gives way to the semicolon
that ends the statement. -/
def emit (p : Personality) : Except EmitError Text := do
  let root := createNode "p" "Personality" ("name: " ++ literal p.name)
  let traits ← numbered trait p.traits
  let domains ← numbered (fun i d => .ok (domain i d)) p.knowledge
  let connections ← numbered (fun _ c => connection p c) p.connections
  let behaviors ← numbered behavior p.behaviors
  let evolution ← numbered evolution p.evolution
  return Text.withoutEnding [10] (root ++ traits ++ domains ++ connections ++ behaviors ++
    evolution) ++
    ";\n"

end Persona.Cypher
