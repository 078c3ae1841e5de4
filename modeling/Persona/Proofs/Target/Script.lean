import Persona.Proofs.Request
import Persona.Proofs.Target.Lexeme

/-!
# The tables read back

A script of the SQL target is read the way a database reads it: cut into lexemes and
statements, each of which creates a table or inserts a row. The script of a
personality creates five tables and inserts one row for each entry, in the order of
the lists, whatever bytes the texts of the personality are made of.

From the rows the lists can be restored: modifiers and the parts of rules are document
text and are read as fragments.
-/

namespace Persona.Sql

open Structured (exists_of_bind_ok)

/-- How SQL is cut. A quote is doubled inside a literal, and a double quote inside an
identifier; two minus signs start a comment, and so does a slash with an asterisk. -/
def dialect : Dialect where
  symbols := [40, 41, 44, 59]
  doubled := [39, 34]
  escaped := []
  comments := [(45, 45), (47, 42)]
  quotes_apart := by decide +kernel

/-- A value of a row: a literal, or a number or a keyword that stands bare. -/
inductive Value where
  | literal (text : Text)
  | bare (word : Text)
deriving DecidableEq

/-- The lexeme of a value. -/
def Value.lexeme : Value → Lexeme
  | .literal text => .quoted 39 text
  | .bare word => .word word

/-- The value that a lexeme stands for. -/
def Value.ofLexemes? : List Lexeme → Option Value
  | [.quoted 39 text] => some (.literal text)
  | [.word word] => some (.bare word)
  | _ => none

/-- The name that a lexeme stands for. -/
def nameOf? : List Lexeme → Option Text
  | [.word name] => some name
  | _ => none

/-- A row with the table it goes to. -/
structure Row where
  table : Text
  columns : List Text
  values : List Value
deriving DecidableEq

/-- A statement of a script. What is said of a column is kept as it is. -/
inductive Statement where
  | create (table : Text) (definitions : List (List Lexeme))
  | insert (row : Row)
deriving DecidableEq

/-- The words of a phrase. -/
def words (phrase : Text) : List Lexeme := (phrase.splitAt 32).map .word

/-- What is behind a row's table. -/
def rowOf? (table : Text) (found : List Lexeme) : Option Row := do
  let (columns, behind) ← Lexeme.grouped found
  let names ← columns.mapM nameOf?
  let list ← Lexeme.expect (words "VALUES" ++ [.symbol 40]) behind
  let (values, rest) ← Lexeme.grouped list
  let values ← values.mapM Value.ofLexemes?
  if rest = [] ∧ names.length = values.length then some ⟨table, names, values⟩ else none

/-- The statement that lexemes spell. -/
def Statement.ofLexemes? (found : List Lexeme) : Option Statement :=
  match Lexeme.expect (words "CREATE TABLE IF NOT EXISTS") found with
  | some (.word table :: .symbol 40 :: rest) =>
    match Lexeme.grouped rest with
    | some (definitions, []) => some (.create table definitions)
    | _ => none
  | _ =>
    match Lexeme.expect (words "INSERT INTO") found with
    | some (.word table :: .symbol 40 :: rest) => (rowOf? table rest).map .insert
    | _ => none

/-- Read a script. -/
def read? (text : Text) : Option (List Statement) := do
  let found ← dialect.lexemes text
  let parts ← Lexeme.statements found
  parts.mapM Statement.ofLexemes?

/-- The lexemes of a statement. -/
def Statement.lexemes : Statement → List Lexeme
  | .create table definitions =>
    words "CREATE TABLE IF NOT EXISTS" ++ .word table :: .symbol 40 ::
      ([Lexeme.comma].intercalate definitions ++ [.symbol 41])
  | .insert row =>
    words "INSERT INTO" ++ .word row.table :: .symbol 40 ::
      ([Lexeme.comma].intercalate (row.columns.map fun c => [.word c]) ++ .symbol 41 ::
        (words "VALUES" ++ [.symbol 40] ++
          ([Lexeme.comma].intercalate (row.values.map fun v => [v.lexeme]) ++ [.symbol 41])))

/-- The statement can be told from its lexemes, and none of them ends it early. -/
def Statement.Readable (s : Statement) : Prop :=
  ofLexemes? s.lexemes = some s ∧ Lexeme.symbol 59 ∉ s.lexemes

instance (s : Statement) : Decidable s.Readable := inferInstanceAs (Decidable (_ ∧ _))

/-- A script of readable statements is read as those statements. -/
theorem read?_closed {text : Text} {statements : List Statement}
    (closed : dialect.Closed text (statements.flatMap fun s => s.lexemes ++ [.symbol 59]))
    (readable : ∀ s ∈ statements, s.Readable) : read? text = some statements := by
  have parts : Lexeme.statements (statements.flatMap fun s => s.lexemes ++ [.symbol 59]) =
      some (statements.map Statement.lexemes) := by
    have separate := Lexeme.statements_flatMap (statements.map Statement.lexemes)
      (List.forall_mem_map.mpr fun s member => (readable s member).2)
    rwa [List.flatMap_map] at separate
  have each : (statements.map Statement.lexemes).mapM Statement.ofLexemes? = some statements :=
    mapM_map_some fun s member => (readable s member).1
  simp [read?, closed.toOpen.lexemes_eq, parts, each]

/-- A value is told from its lexeme. -/
theorem Value.ofLexemes?_lexeme (v : Value) : ofLexemes? [v.lexeme] = some v := by
  cases v <;> rfl

/-- The lexeme of a value is no symbol. -/
theorem Value.lexeme_isPlain (v : Value) : v.lexeme.isPlain = true := by
  cases v <;> rfl

/-- A row is told from what stands behind its table. -/
theorem rowOf?_lexemes {row : Row} (sameLength : row.columns.length = row.values.length) :
    rowOf? row.table ([Lexeme.comma].intercalate (row.columns.map fun c => [.word c]) ++
      .symbol 41 ::
      (words "VALUES" ++ [.symbol 40] ++
      ([Lexeme.comma].intercalate (row.values.map fun v => [v.lexeme]) ++ [.symbol 41]))) =
        some row := by
  have columnMembers : ∀ item ∈ row.columns.map fun c => [Lexeme.word c],
      Lexeme.Member item ∧ item ≠ [] :=
    List.forall_mem_map.mpr fun c _ => ⟨.plain rfl, List.cons_ne_nil _ _⟩
  have valueMembers : ∀ item ∈ row.values.map fun v => [v.lexeme], Lexeme.Member item ∧
      item ≠ [] :=
    List.forall_mem_map.mpr fun v _ => ⟨.plain v.lexeme_isPlain, List.cons_ne_nil _ _⟩
  have names : (row.columns.map fun c => [Lexeme.word c]).mapM nameOf? = some row.columns :=
    mapM_map_some fun _ _ => rfl
  have read : (row.values.map fun v => [v.lexeme]).mapM Value.ofLexemes? = some row.values :=
    mapM_map_some fun v _ => v.ofLexemes?_lexeme
  have bracket : (Lexeme.symbol 41).closes = true := by decide
  rw [rowOf?, Lexeme.grouped_intercalate bracket columnMembers]
  simp only [Option.bind_eq_bind, Option.bind_some, names]
  rw [Lexeme.expect_append, Option.bind_some, Lexeme.grouped_intercalate bracket valueMembers]
  simp only [Option.bind_some, read, sameLength, and_self, if_true]

/-- A row with as many values as columns is readable. -/
theorem Row.readable (row : Row) (sameLength : row.columns.length = row.values.length) :
    (Statement.insert row).Readable := by
  constructor
  · have noTable : Lexeme.expect (words "CREATE TABLE IF NOT EXISTS") (Statement.insert
        row).lexemes = none := rfl
    rw [Statement.ofLexemes?, noTable, Statement.lexemes, Lexeme.expect_append]
    simp only [rowOf?_lexemes sameLength, Option.map_some]
  · have columns : Lexeme.symbol 59 ∉ [Lexeme.comma].intercalate (row.columns.map fun c =>
        [Lexeme.word c]) := by
      have plain : ∀ l ∈ row.columns.map Lexeme.word, l.isPlain = true :=
        List.forall_mem_map.mpr fun _ _ => rfl
      simpa [Function.comp_def] using Lexeme.notMem_separated plain (b := 59) (by decide)
    have values : Lexeme.symbol 59 ∉ [Lexeme.comma].intercalate (row.values.map fun v =>
        [v.lexeme]) := by
      have plain : ∀ l ∈ row.values.map Value.lexeme, l.isPlain = true :=
        List.forall_mem_map.mpr fun v _ => v.lexeme_isPlain
      simpa [Function.comp_def] using Lexeme.notMem_separated plain (b := 59) (by decide)
    simp [Statement.lexemes, words, columns, values]

/-- The tables, one for each list of a personality. -/
inductive Table where
  | traits | topics | connections | behaviors | evolution
deriving DecidableEq

namespace Table

/-- The name of a table. -/
def name : Table → Text
  | .traits => "traits"
  | .topics => "knowledge_topics"
  | .connections => "knowledge_connections"
  | .behaviors => "behaviors"
  | .evolution => "evolution_rules"

/-- The columns of a table behind those of its key, and what is said of each. -/
def columns : Table → List (Text × Text)
  | .traits =>
    [("name", "TEXT NOT NULL"), ("strength", "REAL NOT NULL"), ("modifiers", "TEXT NOT NULL")]
  | .topics =>
    [("domain", "TEXT NOT NULL"), ("topic", "TEXT NOT NULL"), ("level", "TEXT NOT NULL")]
  | .connections =>
    [("from_domain", "TEXT NOT NULL"), ("to_domain", "TEXT NOT NULL"),
      ("strength", "REAL NOT NULL"),
      ("evolution_rate", "REAL")]
  | .behaviors => [("condition_text", "TEXT NOT NULL"), ("action_text", "TEXT NOT NULL")]
  | .evolution => [("trigger_text", "TEXT NOT NULL"), ("effect_text", "TEXT NOT NULL")]

/-- The statement that creates a table. -/
def creation (t : Table) : Statement :=
  let key : List (Text × Text) :=
    [("personality", "TEXT NOT NULL"), ("idx", "INTEGER NOT NULL")]
  .create t.name (((key ++ t.columns).map fun (column, type) => words column ++ words type) ++
    [words "PRIMARY KEY" ++ [.symbol 40, .word "personality", Lexeme.comma, .word "idx",
      .symbol 41]])

/-- The names of those columns. -/
def columnNames (t : Table) : List Text := t.columns.map Prod.fst

/-- The row of an entry at a position. -/
def row (t : Table) (personality : Text) (position : Nat) (values : List Value) : Row :=
  ⟨t.name, "personality" :: "idx" :: t.columnNames,
    .literal personality :: .bare (Text.ofNat position) :: values⟩

end Table

/-- The statements that create the tables. -/
def creations : List Statement :=
  [Table.traits, .topics, .connections, .behaviors, .evolution].map Table.creation

/-- The schema is read as the creation of the tables. -/
theorem schema_closed :
    dialect.Closed (schema.flatMap fun statement => statement ++ Text.ofString "\n\n")
      (creations.flatMap fun s => s.lexemes ++ [.symbol 59]) ∧ ∀ s ∈ creations,
      s.Readable := by
  decide +kernel

/-- Numbers are words of SQL. -/
theorem numeric : dialect.Numeric where
  plain := by
    have checked : Layout.numericBytes.all (fun b => !dialect.separates b &&
        !dialect.isMark b) = true := by decide
    simpa only [List.all_eq_true, Bool.and_eq_true, Bool.not_eq_true'] using checked
  silent := List.forall_mem_cons.mpr ⟨by decide, List.forall_mem_cons.mpr ⟨by decide, nofun⟩⟩

/-- A literal is read as its content, whatever that is. -/
theorem literal_open (text : Text) :
    dialect.Open (literal text) [(Value.literal text).lexeme] := by
  have spelled : literal text = 39 :: (text.replaceByte 39 [39, 39] ++ [39]) := rfl
  rw [spelled]
  exact Dialect.open_doubled (by decide) (by decide) text

/-- A number is read as it stands. -/
theorem number_open (x : Binary64) : dialect.Open x.text [(Value.bare x.text).lexeme] :=
  (numeric.number x).isOpen

/-- Everything in front of the values of a row. -/
theorem head_closed (t : Table) :
    dialect.Closed ("INSERT INTO " ++ t.name ++ " (personality, idx, " ++
      Text.join ", " t.columnNames ++ ") VALUES (")
      (words "INSERT INTO" ++ .word t.name :: .symbol 40 ::
        ([Lexeme.comma].intercalate ((Text.ofString "personality" :: "idx" ::
        t.columnNames).map fun c => [.word c]) ++
          .symbol 41 :: (words "VALUES" ++ [.symbol 40]))) := by
  cases t <;> decide +kernel

/-- The statement of a row is read as the row. -/
theorem insert_closed (t : Table) (personality : Text) (position : Nat) {texts : List Text}
    {values : List Value}
    (each : List.Forall₂ (fun text value => dialect.Open text [Value.lexeme value]) texts
      values) :
    dialect.Closed (insert t.name (Text.join ", " t.columnNames) personality position texts)
      ((Statement.insert (t.row personality position values)).lexemes ++ [.symbol 59]) := by
  have keyed : List.Forall₂ dialect.Open (literal personality :: Text.ofNat position :: texts)
      ((Value.literal personality :: Value.bare (Text.ofNat position) :: values).map
        fun v => [v.lexeme]) := by
    refine .cons (literal_open personality) (.cons (numeric.position position).isOpen ?_)
    exact List.forall₂_map_right_iff.mpr each
  have separated := Dialect.Open.join (d := dialect) ", " [Lexeme.comma] (by decide)
    ⟨44, [32], rfl, by decide⟩ keyed
  have ended : dialect.Closed ");\n" [.symbol 41, .symbol 59] := by decide
  have separating : dialect.Separating ");\n" := ⟨41, [59, 10], rfl, by decide⟩
  have whole := (head_closed t).append (separated.append separating ended)
  unfold insert
  simp only [Statement.lexemes, Table.row, List.append_assoc, List.cons_append,
    List.nil_append] at whole ⊢
  exact whole

/-- The row tells of the trait at its position; its modifiers are a list of
document texts. -/
def IsTraitRow (personality : Text) (entry : Trait × Nat) (r : Row) : Prop :=
  ∃ modifiers, entry.1.modifiers.mapM writeModifier = .ok modifiers ∧
    r = Table.traits.row personality entry.2 [.literal entry.1.name,
      .bare entry.1.strength.text,
      .literal (Json.write [] (.list (modifiers.map .string)))]

/-- The row tells of the topic at its position, and of its domain. -/
def IsTopicRow (personality : Text) (entry : (Text × Topic) × Nat) (r : Row) : Prop :=
  r = Table.topics.row personality entry.2
    [.literal entry.1.1, .literal entry.1.2.name, .literal entry.1.2.level.text]

/-- The row tells of the connection at its position. -/
def IsConnectionRow (personality : Text) (entry : Connection × Nat) (r : Row) : Prop :=
  r = Table.connections.row personality entry.2 [.literal entry.1.source,
    .literal entry.1.target,
    .bare entry.1.strength.text, .bare ((entry.1.rate.map Binary64.text).getD "NULL")]

/-- The row tells of the behavior at its position, both parts as document text. -/
def IsBehaviorRow (personality : Text) (entry : BehaviorRule × Nat) (r : Row) : Prop :=
  ∃ condition action, writeCondition entry.1.condition = .ok condition ∧
    writeAction entry.1.action = .ok action ∧
    r = Table.behaviors.row personality entry.2 [.literal condition, .literal action]

/-- The row tells of the evolution rule at its position, both parts as document text. -/
def IsEvolutionRow (personality : Text) (entry : EvolutionRule × Nat) (r : Row) : Prop :=
  ∃ trigger effect, writeTrigger entry.1.trigger = .ok trigger ∧
    writeEffect entry.1.effect = .ok effect ∧
    r = Table.evolution.row personality entry.2 [.literal trigger, .literal effect]

/-- The text is the statement of a row that is in the table at the position. -/
def Inserts (t : Table) (personality : Text) (position : Nat) (text : Text) (r : Row) : Prop :=
  dialect.Closed text ((Statement.insert r).lexemes ++ [.symbol 59]) ∧
    ∃ values, r = t.row personality position values ∧ t.columns.length = values.length

/-- A statement inserts what its values are read as. -/
theorem inserts (t : Table) (personality : Text) (position : Nat) {texts : List Text}
    {values : List Value} (sameLength : t.columns.length = values.length)
    (each : List.Forall₂ (fun text value => dialect.Open text [Value.lexeme value]) texts
      values) :
    Inserts t personality position (insert t.name (Text.join ", " t.columnNames) personality
      position texts)
      (t.row personality position values) :=
  ⟨insert_closed t personality position each, values, rfl, sameLength⟩

/-- The row of a trait. -/
theorem traitRow_inserts {personality text : Text} {position : Nat} {t : Trait}
    (written : traitRow personality position t = .ok text) :
    ∃ r, Inserts .traits personality position text r ∧
      IsTraitRow personality (t, position) r := by
  obtain ⟨modifiers, modifiersWritten, written⟩ := exists_of_bind_ok written
  obtain rfl := Except.ok.inj written
  refine ⟨_, inserts .traits personality position rfl ?_, modifiers, modifiersWritten, rfl⟩
  exact .cons (literal_open _) (.cons (number_open _) (.cons (literal_open _) .nil))

/-- The row of a topic. -/
theorem topicRow_inserts (personality : Text) (position : Nat) (domain : Text) (t : Topic) :
    ∃ r, Inserts .topics personality position (topicRow personality position domain t) r ∧
      IsTopicRow personality ((domain, t), position) r := by
  refine ⟨_, inserts .topics personality position rfl ?_, rfl⟩
  exact .cons (literal_open _) (.cons (literal_open _) (.cons (literal_open _) .nil))

/-- The row of a connection. -/
theorem connectionRow_inserts (personality : Text) (position : Nat) (c : Connection) :
    ∃ r, Inserts .connections personality position (connectionRow personality position c) r ∧
      IsConnectionRow personality (c, position) r := by
  obtain ⟨source, target, strength, rate⟩ := c
  have rateOpen : dialect.Open ((rate.map Binary64.text).getD "NULL")
      [(Value.bare ((rate.map Binary64.text).getD "NULL")).lexeme] := by
    cases rate with
    | none => exact ⟨[], .outside "NULL", [.word "NULL"], by decide, rfl, rfl⟩
    | some r => exact number_open r
  have spelled : connectionRow personality position ⟨source, target, strength, rate⟩ =
      insert Table.connections.name (Text.join ", " Table.connections.columnNames)
        personality position
        [literal source, literal target, strength.text,
          (rate.map Binary64.text).getD "NULL"] := by
    cases rate <;> rfl
  rw [spelled]
  refine ⟨_, inserts .connections personality position rfl ?_, rfl⟩
  exact .cons (literal_open _) (.cons (literal_open _)
    (.cons (number_open _) (.cons rateOpen .nil)))

/-- The row of a behavior. -/
theorem behaviorRow_inserts {personality text : Text} {position : Nat} {b : BehaviorRule}
    (written : behaviorRow personality position b = .ok text) :
    ∃ r, Inserts .behaviors personality position text r ∧
      IsBehaviorRow personality (b, position) r := by
  obtain ⟨condition, conditionWritten, written⟩ := exists_of_bind_ok written
  obtain ⟨action, actionWritten, written⟩ := exists_of_bind_ok written
  obtain rfl := Except.ok.inj written
  refine ⟨_, inserts .behaviors personality position rfl ?_, condition, action,
    conditionWritten, actionWritten, rfl⟩
  exact .cons (literal_open _) (.cons (literal_open _) .nil)

/-- The row of an evolution rule. -/
theorem evolutionRow_inserts {personality text : Text} {position : Nat} {e : EvolutionRule}
    (written : evolutionRow personality position e = .ok text) :
    ∃ r, Inserts .evolution personality position text r ∧
      IsEvolutionRow personality (e, position) r := by
  obtain ⟨trigger, triggerWritten, written⟩ := exists_of_bind_ok written
  obtain ⟨effect, effectWritten, written⟩ := exists_of_bind_ok written
  obtain rfl := Except.ok.inj written
  refine ⟨_, inserts .evolution personality position rfl ?_, trigger, effect,
    triggerWritten, effectWritten, rfl⟩
  exact .cons (literal_open _) (.cons (literal_open _) .nil)

end Persona.Sql
