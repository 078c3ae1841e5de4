import Persona.Proofs.Request
import Persona.Proofs.Target.Lexeme

/-!
# Queries read back

A query of the Cypher target is read the way a database reads it: cut into lexemes, of
which the last one is the only semicolon, and then into clauses. A clause creates a node
with properties or an edge between two nodes that have names.

A property is told by its key, which may stand bare or between backticks; both are the
same key to a database.
-/

namespace Persona.Cypher

/-- How Cypher is cut. A backslash stands in front of a quote or a backslash inside a
literal, and a backtick is doubled inside a key; two slashes start a comment, and so does
a slash with an asterisk. -/
def dialect : Dialect where
  symbols := [40, 41, 91, 93, 123, 125, 58, 44, 59]
  doubled := [96]
  escaped := [39, 34]
  comments := [(47, 47), (47, 42)]
  quotes_apart := by decide +kernel

/-- A value of a property: a literal, a number that stands bare, or a list of literals. -/
inductive Value where
  | literal (text : Text)
  | bare (word : Text)
  | list (items : List Text)
deriving DecidableEq

/-- A key and its value. -/
abbrev Property : Type := Text × Value

/-- A node with the name that the query has for it. -/
structure Node where
  handle : Text
  label : Text
  properties : List Property
deriving DecidableEq

/-- An edge between two nodes that have names. -/
structure Edge where
  source : Text
  relation : Text
  target : Text
  properties : List Property
deriving DecidableEq

/-- What a clause creates. -/
inductive Clause where
  | node (node : Node)
  | edge (edge : Edge)
deriving DecidableEq

/-- The text of a literal. -/
def literalOf? : List Lexeme → Option Text
  | [.quoted 39 text] => some text
  | _ => none

/-- The value that lexemes spell. -/
def Value.ofLexemes? : List Lexeme → Option Value
  | [.quoted 39 text] => some (.literal text)
  | [.word word] => some (.bare word)
  | .symbol 91 :: rest =>
    match Lexeme.grouped rest with
    | some (items, []) => (items.mapM literalOf?).map .list
    | _ => none
  | _ => none

/-- The property that lexemes spell. -/
def propertyOf? : List Lexeme → Option Property
  | .word key :: .symbol 58 :: value | .quoted 96 key :: .symbol 58 :: value =>
    (Value.ofLexemes? value).map fun v => (key, v)
  | _ => none

/-- Where the arrow behind a relation leads. -/
def targetOf? : List Lexeme → Option Text
  | [.symbol 93, .word arrow, .symbol 40, .word target, .symbol 41] =>
    if arrow = "->" then some target else none
  | _ => none

/-- The clause that lexemes spell. -/
def Clause.ofLexemes? : List Lexeme → Option Clause
  | .symbol 40 :: .word handle :: .symbol 58 :: .word label :: .symbol 123 :: rest =>
    match Lexeme.grouped rest with
    | some (items, [.symbol 41]) =>
      (items.mapM propertyOf?).map fun properties => .node ⟨handle, label, properties⟩
    | _ => none
  | .symbol 40 :: .word source :: .symbol 41 :: .word dash :: .symbol 91 :: .symbol 58 ::
      .word relation :: rest =>
    if dash = "-" then
      match rest with
      | .symbol 123 :: inner => do
        let (items, behind) ← Lexeme.grouped inner
        let properties ← items.mapM propertyOf?
        let target ← targetOf? behind
        return .edge ⟨source, relation, target, properties⟩
      | _ => (targetOf? rest).map fun target => .edge ⟨source, relation, target, []⟩
    else none
  | _ => none

/-- The keyword of a clause. -/
def keyword : Lexeme := .word "CREATE"

/-- Read a query, which is one statement. -/
def read? (text : Text) : Option (List Clause) := do
  let found ← dialect.lexemes text
  match Lexeme.statements found with
  | some [query] =>
    let parts ← Lexeme.clauses keyword query
    parts.mapM Clause.ofLexemes?
  | _ => none

/-- The lexemes neither end the statement nor start a clause. -/
def Quiet (found : List Lexeme) : Prop := .symbol 59 ∉ found ∧ keyword ∉ found

instance (found : List Lexeme) : Decidable (Quiet found) := inferInstanceAs (Decidable (_ ∧ _))

/-- Quiet lexemes one after the other. -/
theorem Quiet.append {first second : List Lexeme} (start : Quiet first)
    (continued : Quiet second) :
    Quiet (first ++ second) := by
  simp only [Quiet, List.mem_append, not_or]
  exact ⟨⟨start.1, continued.1⟩, start.2, continued.2⟩

/-- A quiet lexeme in front of quiet ones. -/
theorem Quiet.cons {l : Lexeme} {rest : List Lexeme} (first : Quiet [l])
    (others : Quiet rest) : Quiet (l :: rest) :=
  first.append others

/-- A quotation is quiet. -/
theorem Quiet.quoted (mark : UInt8) (content : Text) : Quiet [.quoted mark content] := by
  simp [Quiet, keyword]

/-- A word that is not the keyword is quiet. -/
theorem Quiet.word {text : Text} (other : text ≠ "CREATE") : Quiet [.word text] := by
  simp [Quiet, keyword, Ne.symm other]

/-- A symbol that is not the semicolon is quiet. -/
theorem Quiet.symbol {b : UInt8} (other : b ≠ 59) : Quiet [.symbol b] := by
  simp [Quiet, keyword, Ne.symm other]

/-- Quiet lists with commas between them. -/
theorem Quiet.intercalate {items : List (List Lexeme)} (each : ∀ item ∈ items, Quiet item) :
    Quiet ([Lexeme.comma].intercalate items) := by
  induction items with
  | nil => exact ⟨nofun, nofun⟩
  | cons first items inductionHypothesis =>
    obtain ⟨here, others⟩ := List.forall_mem_cons.mp each
    cases items with
    | nil => simpa [List.intercalate] using here
    | cons second items =>
      rw [List.intercalate_cons_cons]
      exact (here.append (.symbol (by decide))).append (inductionHypothesis others)

/-- The lexemes spell a property wherever properties stand. -/
structure SpellsProperty (found : List Lexeme) (property : Property) : Prop where
  read : propertyOf? found = some property
  member : Lexeme.Member found
  nonempty : found ≠ []
  quiet : Quiet found

/-- The lexemes spell a clause. -/
def SpellsClause (found : List Lexeme) (clause : Clause) :
    Prop := Clause.ofLexemes? found = some clause ∧ Quiet found

/-- A key, a colon and a value. -/
theorem SpellsProperty.single {key value : Lexeme} {property : Property}
    (read : propertyOf? [key, .symbol 58, value] = some property)
    (keyPlain : key.isPlain = true)
    (valuePlain : value.isPlain = true) (keyQuiet : Quiet [key]) (valueQuiet : Quiet [value]) :
    SpellsProperty [key, .symbol 58, value] property where
  read := read
  member := (Lexeme.Member.plain keyPlain).append
    ((Lexeme.Member.single (by decide) (by decide) (by decide)).append
      (Lexeme.Member.plain valuePlain))
  nonempty := List.cons_ne_nil _ _
  quiet := keyQuiet.append ((Quiet.symbol (by decide)).append valueQuiet)

/-- A key, a colon and a list of literals. -/
theorem SpellsProperty.list {key : Text} (keyQuiet : Quiet [.word key]) (items : List Text) :
    SpellsProperty (.word key :: .symbol 58 :: .symbol 91 ::
      ([Lexeme.comma].intercalate (items.map fun item => [.quoted 39 item]) ++
      [.symbol 93])) (key, .list items) := by
  have plain : ∀ l ∈ items.map (Lexeme.quoted 39), l.isPlain = true :=
    List.forall_mem_map.mpr fun _ _ => rfl
  have members : ∀ item ∈ items.map fun item => [Lexeme.quoted 39 item],
      Lexeme.Member item ∧ item ≠ [] :=
    List.forall_mem_map.mpr fun _ _ => ⟨.plain rfl, List.cons_ne_nil _ _⟩
  have separated : ([Lexeme.comma].intercalate (items.map fun item =>
      [Lexeme.quoted 39 item])) =
      [Lexeme.comma].intercalate ((items.map (Lexeme.quoted 39)).map fun l => [l]) := by
    rw [List.map_map]
    rfl
  refine ⟨?_, ?_, List.cons_ne_nil _ _, ?_⟩
  · have read : (items.map fun item => [Lexeme.quoted 39 item]).mapM literalOf? = some items :=
      mapM_map_some fun _ _ => rfl
    simp only [propertyOf?, Value.ofLexemes?]
    rw [Lexeme.grouped_intercalate (by decide) members]
    simp [read]
  · have inner :
        ∀ l ∈ [Lexeme.comma].intercalate (items.map fun item => [Lexeme.quoted 39 item]),
        l.closes = false ∧ l.opens = false := by
      rw [separated]
      intro l member
      rcases Lexeme.mem_separated member with rfl | among
      · decide
      · obtain ⟨item, -, rfl⟩ := List.mem_map.mp among
        exact ⟨rfl, rfl⟩
    exact (Lexeme.Member.plain (l := .word key) rfl).append
      ((Lexeme.Member.single (l := .symbol 58) (by decide) (by decide) (by decide)).append
        (Lexeme.Member.group (by decide) (by decide) (by decide) inner))
  · have inner : Quiet ([Lexeme.comma].intercalate (items.map fun item =>
        [Lexeme.quoted 39 item])) :=
      .intercalate (List.forall_mem_map.mpr fun _ _ => .quoted 39 _)
    exact keyQuiet.append ((Quiet.symbol (by decide)).append
      ((Quiet.symbol (b := 91) (by decide)).append
      (inner.append (.symbol (by decide)))))

/-- What is known of each property is known of the list. -/
theorem SpellsProperty.all {founds : List (List Lexeme)} {properties : List Property}
    (each : List.Forall₂ SpellsProperty founds properties) :
    (∀ found ∈ founds, Lexeme.Member found ∧ found ≠ []) ∧
    Quiet ([Lexeme.comma].intercalate founds) ∧
      founds.mapM propertyOf? = some properties := by
  have spelled : ∀ found ∈ founds, ∃ property, SpellsProperty found property := by
    induction each with
    | nil => exact nofun
    | cons first _ inductionHypothesis =>
      exact List.forall_mem_cons.mpr ⟨⟨_, first⟩, inductionHypothesis⟩
  refine ⟨fun found member => ?_, .intercalate fun found member =>
    ?_, mapM_some (each.imp fun _ _ spells => spells.read)⟩
  · obtain ⟨_, spells⟩ := spelled found member
    exact ⟨spells.member, spells.nonempty⟩
  · obtain ⟨_, spells⟩ := spelled found member
    exact spells.quiet

/-- A node is told from its lexemes. -/
theorem SpellsClause.node {handle label : Text} {founds : List (List Lexeme)}
    {properties : List Property}
    (handleQuiet : Quiet [.word handle]) (labelQuiet : Quiet [.word label])
    (each : List.Forall₂ SpellsProperty founds properties) :
    SpellsClause (.symbol 40 :: .word handle :: .symbol 58 :: .word label :: .symbol 123 ::
      ([Lexeme.comma].intercalate founds ++ [.symbol 125, .symbol 41]))
      (.node ⟨handle, label, properties⟩) := by
  obtain ⟨members, quiet, read⟩ := SpellsProperty.all each
  constructor
  · simp only [Clause.ofLexemes?]
    rw [Lexeme.grouped_intercalate (by decide) members]
    simp [read]
  · refine .cons (by decide) (.cons handleQuiet
      (.cons (by decide) (.cons labelQuiet (.cons (by decide) ?_))))
    exact quiet.append (by decide)

/-- An edge without properties is told from its lexemes. -/
theorem SpellsClause.edge {source relation target : Text} (sourceQuiet : Quiet [.word source])
    (relationQuiet : Quiet [.word relation]) (targetQuiet : Quiet [.word target]) :
    SpellsClause [.symbol 40, .word source, .symbol 41, .word "-", .symbol 91, .symbol 58,
      .word relation, .symbol 93, .word "->", .symbol 40, .word target, .symbol 41]
      (.edge ⟨source, relation, target, []⟩) := by
  constructor
  · simp [Clause.ofLexemes?, targetOf?]
  · refine .cons (by decide) (.cons sourceQuiet
      (.cons (by decide) (.cons (by decide) (.cons (by decide)
      (.cons (by decide) (.cons relationQuiet
        (.cons (by decide) (.cons (by decide) (.cons (by decide) ?_)))))))))
    exact targetQuiet.append (.symbol (by decide))

/-- An edge with properties is told from its lexemes. -/
theorem SpellsClause.edgeWith {source relation target : Text} {founds : List (List Lexeme)}
    {properties : List Property} (sourceQuiet : Quiet [.word source])
    (relationQuiet : Quiet [.word relation]) (targetQuiet : Quiet [.word target])
    (each : List.Forall₂ SpellsProperty founds properties) :
    SpellsClause (.symbol 40 :: .word source :: .symbol 41 :: .word "-" :: .symbol 91 ::
      .symbol 58 :: .word relation ::
      .symbol 123 :: ([Lexeme.comma].intercalate founds ++
        [.symbol 125, .symbol 93, .word "->", .symbol 40, .word target, .symbol 41]))
      (.edge ⟨source, relation, target, properties⟩) := by
  obtain ⟨members, quiet, read⟩ := SpellsProperty.all each
  constructor
  · simp only [Clause.ofLexemes?, if_true]
    rw [Lexeme.grouped_intercalate (by decide) members]
    simp [read, targetOf?]
  · refine .cons (by decide) (.cons sourceQuiet
      (.cons (by decide) (.cons (by decide) (.cons (by decide)
      (.cons (by decide) (.cons relationQuiet (.cons (by decide) (quiet.append ?_))))))))
    refine .cons (by decide) (.cons (by decide) (.cons (by decide) (.cons (by decide) ?_)))
    exact targetQuiet.append (.symbol (by decide))

/-- Numbers are words of Cypher. -/
theorem numeric : dialect.Numeric where
  plain := by
    have checked : Layout.numericBytes.all (fun b => !dialect.separates b &&
        !dialect.isMark b) = true := by decide
    simpa only [List.all_eq_true, Bool.and_eq_true, Bool.not_eq_true'] using checked
  silent := List.forall_mem_cons.mpr ⟨by decide, List.forall_mem_cons.mpr ⟨by decide, nofun⟩⟩

/-- The text is read as a property wherever properties stand. -/
def ReadsProperty (text : Text) (property : Property) : Prop :=
  ∃ found, dialect.Open text found ∧ SpellsProperty found property

/-- The text is read as clauses, and ends a line. -/
structure Reads (text : Text) (clauses : List Clause) : Prop where
  found : ∃ parts, dialect.Closed text (parts.flatMap fun part => keyword :: part) ∧
    List.Forall₂ SpellsClause parts clauses
  line : ∀ b ∈ text.getLast?, b = 10

/-- A literal is read as its content, whatever that is. -/
theorem literal_open (text : Text) : dialect.Open (literal text) [.quoted 39 text] := by
  have escaped : (text.replaceByte 92 "\\\\").replaceByte 39 "\\'" =
      text.flatMap fun b => if b = 92 ∨ b = 39 then [92, b] else [b] := by
    rw [Text.replaceByte, Text.replaceByte, List.flatMap_assoc]
    refine List.flatMap_congr fun b _ => ?_
    by_cases backslash : b = 92
    · subst backslash
      decide
    · by_cases quote : b = 39
      · subst quote
        decide
      · simp [backslash, quote]
  have spelled : literal text =
      39 :: ((text.flatMap fun b => if b = 92 ∨ b = 39 then [92, b] else [b]) ++ [39]) := by
    rw [← escaped]
    rfl
  rw [spelled]
  exact Dialect.open_escaped (by decide) (by decide) (by decide) text

/-- The key of a topic is read as the name of the topic behind a word that no other key
starts with. -/
theorem topicKey_open (topic : Text) :
    dialect.Open (topicKey topic) [.quoted 96 ("topic." ++ topic)] := by
  have spelled : topicKey topic =
      96 :: ((("topic." : Text) ++ topic).replaceByte 96 [96, 96] ++ [96]) := by
    rw [Text.replaceByte, List.flatMap_append]
    rfl
  rw [spelled]
  exact Dialect.open_doubled (by decide) (by decide) _

/-- A key, a colon and a literal. -/
theorem ReadsProperty.literal (start key : Text)
    (closed : dialect.Closed start [.word key, .symbol 58])
    (keyQuiet : Quiet [.word key]) (text : Text) :
    ReadsProperty (start ++ Cypher.literal text) (key, .literal text) :=
  ⟨_, closed.appendOpen (literal_open text), .single rfl rfl rfl keyQuiet (.quoted 39 text)⟩

/-- A key, a colon and a number. -/
theorem ReadsProperty.number (start key : Text)
    (closed : dialect.Closed start [.word key, .symbol 58])
    (keyQuiet : Quiet [.word key]) (x : Binary64) :
    ReadsProperty (start ++ x.text) (key, .bare x.text) := by
  refine ⟨_, closed.appendOpen (numeric.number x).isOpen,
    .single rfl rfl rfl keyQuiet (.word ?_)⟩
  intro same
  have letter : (67 : UInt8) ∈ x.text := by
    rw [same]
    decide
  exact absurd ((Layout.write_numeric Layout.plain x).1 67 letter) (by decide)

/-- A key, a colon and a list of literals. -/
theorem ReadsProperty.list (start key : Text)
    (closed : dialect.Closed start [.word key, .symbol 58, .symbol 91])
    (keyQuiet : Quiet [.word key]) (items : List Text) :
    ReadsProperty (start ++ Text.join ", " (items.map Cypher.literal) ++ "]")
      (key, .list items) := by
  have each : List.Forall₂ dialect.Open (items.map Cypher.literal) (items.map fun item =>
      [Lexeme.quoted 39 item]) := by
    rw [List.forall₂_map_left_iff, List.forall₂_map_right_iff]
    exact List.forall₂_same.mpr fun item _ => literal_open item
  have separated := Dialect.Open.join (d := dialect) ", " [Lexeme.comma] (by decide)
    ⟨44, [32], rfl, by decide⟩ each
  have bracket : dialect.Separating "]" := ⟨93, [], rfl, by decide⟩
  have ended : dialect.Closed "]" [.symbol 93] := by decide
  have whole := closed.append (separated.append bracket ended)
  rw [List.append_assoc]
  exact ⟨_, whole.toOpen, .list keyQuiet items⟩

/-- The key of a topic, a colon and a level. -/
theorem ReadsProperty.topic (topic level : Text) :
    ReadsProperty (topicKey topic ++ ": " ++ Cypher.literal level) ("topic." ++ topic,
      .literal level) := by
  have colon : dialect.Closed ": " [.symbol 58] := by decide
  have separating : dialect.Separating ": " := ⟨58, [32], rfl, by decide⟩
  have key := (topicKey_open topic).append separating colon
  exact ⟨_, key.appendOpen (literal_open level),
    .single rfl rfl rfl (.quoted 96 _) (.quoted 39 level)⟩

/-- Properties with commas between them are read one by one. -/
theorem properties_open {texts : List Text} {properties : List Property}
    (each : List.Forall₂ ReadsProperty texts properties) :
    ∃ founds, dialect.Open (Text.join ", " texts) ([Lexeme.comma].intercalate founds) ∧
      List.Forall₂ SpellsProperty founds properties := by
  have chosen : ∃ founds, List.Forall₂ dialect.Open texts founds ∧
      List.Forall₂ SpellsProperty founds properties := by
    induction each with
    | nil => exact ⟨[], .nil, .nil⟩
    | cons first _ inductionHypothesis =>
      obtain ⟨found, isOpen, spells⟩ := first
      obtain ⟨founds, allOpen, allSpell⟩ := inductionHypothesis
      exact ⟨found :: founds, .cons isOpen allOpen, .cons spells allSpell⟩
  obtain ⟨founds, allOpen, allSpell⟩ := chosen
  refine ⟨founds, ?_, allSpell⟩
  exact Dialect.Open.join (d := dialect) ", " [Lexeme.comma] (by decide) ⟨44, [32],
    rfl, by decide⟩ allOpen

/-- A word of a query that is not the keyword of a clause. -/
structure Name (text : Text) : Prop where
  word : dialect.Word text
  quiet : Quiet [.word text]

/-- Nothing is read as no clauses. -/
theorem Reads.nil : Reads [] [] := ⟨⟨[], .nil, .nil⟩, nofun⟩

/-- Clauses behind clauses. -/
theorem Reads.append {first second : Text} {clauses more : List Clause}
    (start : Reads first clauses)
    (continued : Reads second more) : Reads (first ++ second) (clauses ++ more) := by
  obtain ⟨⟨parts, closed, spell⟩, line⟩ := start
  obtain ⟨⟨others, closed', spell'⟩, line'⟩ := continued
  refine ⟨⟨parts ++ others, ?_, List.rel_append spell spell'⟩, ?_⟩
  · rw [List.flatMap_append]
    exact closed.append closed'
  · intro b last
    rw [List.getLast?_append, Option.mem_def, Option.or_eq_some_iff] at last
    rcases last with here | ⟨-, earlier⟩
    · exact line' b here
    · exact line b earlier

/-- One clause on a line of its own. -/
theorem Reads.clause {start ending : Text} {part : List Lexeme} {clause : Clause}
    (closed : dialect.Closed (start ++ ending) (keyword :: part))
    (line : ending.getLast? = some 10)
    (spells : SpellsClause part clause) : Reads (start ++ ending) [clause] := by
  refine ⟨⟨[part], by simpa using closed, .cons spells .nil⟩, ?_⟩
  simp [List.getLast?_append, line]

/-- The clause of a node is read as the node. -/
theorem createNode_reads {handle label : Text} {texts : List Text}
    {properties : List Property} (handleName : Name handle)
    (labelName : Name label) (each : List.Forall₂ ReadsProperty texts properties) :
    Reads (createNode handle label (Text.join ", " texts))
      [.node ⟨handle, label, properties⟩] := by
  obtain ⟨founds, isOpen, spell⟩ := properties_open each
  have create : dialect.Closed "CREATE (" [keyword, .symbol 40] := by decide
  have colon : dialect.Closed ":" [.symbol 58] := by decide
  have brace : dialect.Closed " \x7b" [.symbol 123] := by decide
  have ending : dialect.Closed "\x7d)\n" [.symbol 125, .symbol 41] := by decide
  have colonApart : dialect.Separating ":" := ⟨58, [], rfl, by decide⟩
  have braceApart : dialect.Separating " \x7b" := ⟨32, [123], rfl, by decide⟩
  have endingApart : dialect.Separating "\x7d)\n" := ⟨125, [41, 10], rfl, by decide⟩
  have closed :=
    ((((create.appendOpen handleName.word.isOpen).append colonApart colon).appendOpen
    labelName.word.isOpen).append braceApart brace).appendOpen isOpen |>.append
      endingApart ending
  refine Reads.clause ?_ (by decide) (.node handleName.quiet labelName.quiet spell)
  simpa using closed

/-- The clause of a link is read as an edge from the root. -/
theorem link_reads {relation handle : Text} (relationName : Name relation)
    (handleName : Name handle) :
    Reads (link relation handle) [.edge ⟨"p", relation, handle, []⟩] := by
  have create : dialect.Closed "CREATE (p)-[:"
      [keyword, .symbol 40, .word "p", .symbol 41, .word "-", .symbol 91, .symbol 58] := by
        decide
  have arrow : dialect.Closed "]->(" [.symbol 93, .word "->", .symbol 40] := by decide
  have ending : dialect.Closed ")\n" [.symbol 41] := by decide
  have arrowApart : dialect.Separating "]->(" := ⟨93, [45, 62, 40], rfl, by decide⟩
  have endingApart : dialect.Separating ")\n" := ⟨41, [10], rfl, by decide⟩
  have closed :=
    ((create.appendOpen relationName.word.isOpen).append arrowApart arrow).appendOpen
    handleName.word.isOpen |>.append endingApart ending
  refine Reads.clause ?_ (by decide) (.edge (.word (by decide)) relationName.quiet
    handleName.quiet)
  simpa using closed

/-- The clause of a connection is read as an edge with its numbers. -/
theorem connects_reads {source target : Text} {texts : List Text}
    {properties : List Property} (sourceName : Name source)
    (targetName : Name target) (each : List.Forall₂ ReadsProperty texts properties) :
    Reads ("CREATE (" ++ source ++ ")-[:CONNECTS_TO \x7b" ++ Text.join ", " texts ++
      "\x7d]->(" ++ target ++ ")\n")
      [.edge ⟨source, "CONNECTS_TO", target, properties⟩] := by
  obtain ⟨founds, isOpen, spell⟩ := properties_open each
  have create : dialect.Closed "CREATE (" [keyword, .symbol 40] := by decide
  have relation : dialect.Closed ")-[:CONNECTS_TO \x7b"
      [.symbol 41, .word "-", .symbol 91, .symbol 58, .word "CONNECTS_TO",
        .symbol 123] := by decide
  have arrow : dialect.Closed "\x7d]->(" [.symbol 125, .symbol 93, .word "->",
      .symbol 40] := by decide
  have ending : dialect.Closed ")\n" [.symbol 41] := by decide
  have relationApart : dialect.Separating ")-[:CONNECTS_TO \x7b" := ⟨41, _, rfl, by decide⟩
  have arrowApart : dialect.Separating "\x7d]->(" := ⟨125, _, rfl, by decide⟩
  have endingApart : dialect.Separating ")\n" := ⟨41, [10], rfl, by decide⟩
  have closed :=
    ((((create.appendOpen sourceName.word.isOpen).append relationApart relation).appendOpen
      isOpen).append
    arrowApart arrow).appendOpen targetName.word.isOpen |>.append endingApart ending
  refine Reads.clause ?_ (by decide) (.edgeWith sourceName.quiet (.word (by decide))
    targetName.quiet spell)
  simpa using closed

/-- An ending that is there is taken off. -/
theorem withoutEnding_append (body ending : Text) :
    Text.withoutEnding ending (body ++ ending) = body := by
  have there : ending.isSuffixOf (body ++ ending) = true :=
    List.isSuffixOf_iff_suffix.mpr (List.suffix_append body ending)
  simp [Text.withoutEnding, there]

/-- Clauses that are read, with a semicolon in place of the last line feed,
are one query. -/
theorem Reads.query {text : Text} {clauses : List Clause} (reads : Reads text clauses)
    (nonempty : text ≠ []) :
    ∃ query, dialect.lexemes (Text.withoutEnding [10] text ++ ";\n") =
      some (query ++ [.symbol 59]) ∧
      Lexeme.symbol 59 ∉ query ∧ read? (Text.withoutEnding [10] text ++ ";\n") =
      some clauses := by
  obtain ⟨⟨parts, closed, spell⟩, line⟩ := reads
  obtain ⟨body, rfl⟩ : ∃ body, text = body ++ [10] := by
    cases last : text.getLast? with
    | none => exact absurd (List.getLast?_eq_none_iff.mp last) nonempty
    | some b =>
      obtain rfl := line b last
      exact List.getLast?_eq_some_iff.mp last
  rw [withoutEnding_append]
  have quiet : ∀ part ∈ parts, Quiet part := by
    clear closed line nonempty
    induction spell with
    | nil => exact nofun
    | cons first _ inductionHypothesis =>
      exact List.forall_mem_cons.mpr ⟨first.2, inductionHypothesis⟩
  have noSemicolon : Lexeme.symbol 59 ∉ parts.flatMap fun part => keyword :: part := by
    intro member
    obtain ⟨part, among, inPart⟩ := List.mem_flatMap.mp member
    rcases List.mem_cons.mp inPart with isKeyword | inside
    · cases isKeyword
    · exact (quiet part among).1 inside
  have ending : dialect.Closed ";\n" [.symbol 59] := by decide
  have endingApart : dialect.Separating ";\n" := ⟨59, [10], rfl, by decide⟩
  have whole :=
    ((closed.withoutBlank (by decide) (by decide)).append endingApart ending).toOpen.lexemes_eq
  refine ⟨_, whole, noSemicolon, ?_⟩
  have one : Lexeme.statements ((parts.flatMap fun part => keyword :: part) ++ [.symbol 59]) =
      some [parts.flatMap fun part => keyword :: part] := by
    simpa using Lexeme.statements_flatMap [parts.flatMap fun part => keyword :: part]
      (by simpa using noSemicolon)
  have told := Lexeme.clauses_flatMap fun part member => (quiet part member).2
  have each := mapM_some (spell.imp fun _ _ spells => spells.1)
  simp [read?, whole, one, told, each]

end Persona.Cypher
