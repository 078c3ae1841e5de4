import Persona.Failure
import Persona.Json.Printer

/-!
# The SQL target

Statements that create one table for each list of a personality and insert its
entries, keyed by the name of the personality and the position in the list.
Parts of rules are stored as document text, modifiers as a JSON list of such
texts. A quote inside a literal is doubled.
-/

namespace Persona.Sql

/-- A column definition. -/
def column (name type : Text) : Text := "  " ++ name ++ " " ++ type ++ ",\n"

/-- The statement that creates a table; every table starts with the same two columns,
which are its key. -/
def createTable (name : Text) (columns : List (Text × Text)) : Text :=
  "CREATE TABLE IF NOT EXISTS " ++ name ++ " (\n" ++
  column "personality" "TEXT NOT NULL" ++ column "idx" "INTEGER NOT NULL" ++
  columns.flatMap (fun (name, type) => column name type) ++
  "  PRIMARY KEY (personality, idx)\n);"

/-- The five tables. -/
def schema : List Text :=
  [createTable "traits"
     [("name", "TEXT NOT NULL"), ("strength", "REAL NOT NULL"),
       ("modifiers", "TEXT NOT NULL")],
   createTable "knowledge_topics"
     [("domain", "TEXT NOT NULL"), ("topic", "TEXT NOT NULL"), ("level", "TEXT NOT NULL")],
   createTable "knowledge_connections"
     [("from_domain", "TEXT NOT NULL"), ("to_domain", "TEXT NOT NULL"),
      ("strength", "REAL NOT NULL"), ("evolution_rate", "REAL")],
   createTable "behaviors"
     [("condition_text", "TEXT NOT NULL"), ("action_text", "TEXT NOT NULL")],
   createTable "evolution_rules"
     [("trigger_text", "TEXT NOT NULL"), ("effect_text", "TEXT NOT NULL")]]

/-- A string literal. -/
def literal (text : Text) : Text := "'" ++ text.replaceByte 39 "''" ++ "'"

/-- The statement that inserts one row: `values` follow the name and the position. -/
def insert (table columns personality : Text) (position : Nat) (values : List Text) : Text :=
  "INSERT INTO " ++ table ++ " (personality, idx, " ++ columns ++ ") VALUES (" ++
  Text.join ", " (literal personality :: Text.ofNat position :: values) ++ ");\n"

/-- The row of a trait. -/
def traitRow (personality : Text) (position : Nat) (t : Trait) : Except Missing Text := do
  let modifiers ← t.modifiers.mapM writeModifier
  let list := Json.write [] (.list (modifiers.map .string))
  return insert "traits" "name, strength, modifiers" personality position
    [literal t.name, t.strength.text, literal list]

/-- The row of a topic of a domain. -/
def topicRow (personality : Text) (position : Nat) (domain : Text) (t : Topic) : Text :=
  insert "knowledge_topics" "domain, topic, level" personality position
    [literal domain, literal t.name, literal t.level.text]

/-- The row of a connection. -/
def connectionRow (personality : Text) (position : Nat) (c : Connection) : Text :=
  let rate : Text := match c.rate with
    | some r => r.text
    | none => "NULL"
  insert "knowledge_connections" "from_domain, to_domain, strength, evolution_rate"
    personality position
    [literal c.source, literal c.target, c.strength.text, rate]

/-- The row of a behavior. -/
def behaviorRow (personality : Text) (position : Nat) (r : BehaviorRule) :
    Except Missing Text := do
  let condition ← writeCondition r.condition
  let action ← writeAction r.action
  return insert "behaviors" "condition_text, action_text" personality position
    [literal condition, literal action]

/-- The row of an evolution rule. -/
def evolutionRow (personality : Text) (position : Nat) (r : EvolutionRule) :
    Except Missing Text := do
  let trigger ← writeTrigger r.trigger
  let effect ← writeEffect r.effect
  return insert "evolution_rules" "trigger_text, effect_text" personality position
    [literal trigger, literal effect]

/-- The rows of a list, numbered from zero. -/
def rows {α : Type} (row : Nat → α → Except Missing Text) (items : List α) :
    Except Missing Text := do
  let texts ← items.zipIdx.mapM fun (item, position) => row position item
  return texts.flatten

/-- The topics of all domains, each with the name of its domain. -/
def topics (p : Personality) : List (Text × Topic) :=
  p.knowledge.flatMap fun d => d.topics.map fun t => (d.name, t)

/-- The statements for a personality. -/
def emit (p : Personality) : Except Missing Text := do
  let tables : Text := schema.flatMap fun statement => statement ++ Text.ofString "\n\n"
  let traits ← rows (traitRow p.name) p.traits
  let topics ← rows (fun i (domain, t) => .ok (topicRow p.name i domain t)) (topics p)
  let connections ← rows (fun i c => .ok (connectionRow p.name i c)) p.connections
  let behaviors ← rows (behaviorRow p.name) p.behaviors
  let evolution ← rows (evolutionRow p.name) p.evolution
  return tables ++ traits ++ topics ++ connections ++ behaviors ++ evolution

end Persona.Sql
