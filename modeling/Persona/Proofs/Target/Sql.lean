import Persona.Proofs.Target.Script

/-!
# The script of a personality

What a database reads in the script of a personality: the five tables, and one row for
every trait, topic, connection, behavior and evolution rule, numbered from zero in each
table. Nothing is asked of the texts. The numbers of the topics run on from one domain
to the next.

The rows of a printable personality lead back to it. The parts of rules come back as
they were; modifiers pass through JSON on the way, which keeps what is valid UTF-8.
-/

namespace Persona.Sql

open Structured (exists_of_bind_ok)

/-- The rows of a script, table by table. -/
structure Rows where
  traits : List Row
  topics : List Row
  connections : List Row
  behaviors : List Row
  evolution : List Row

namespace Rows

/-- The rows of one table. -/
def ofTable (rows : Rows) : Table → List Row
  | .traits => rows.traits
  | .topics => rows.topics
  | .connections => rows.connections
  | .behaviors => rows.behaviors
  | .evolution => rows.evolution

/-- The statements of the script. -/
def statements (rows : Rows) : List Statement :=
  creations ++ (rows.traits ++ rows.topics ++ rows.connections ++ rows.behaviors ++
    rows.evolution).map .insert

/-- The rows tell of every entry of the personality, in order. -/
structure Tell (rows : Rows) (p : Personality) : Prop where
  traits : List.Forall₂ (IsTraitRow p.name) p.traits.zipIdx rows.traits
  topics : List.Forall₂ (IsTopicRow p.name) (Sql.topics p).zipIdx rows.topics
  connections : List.Forall₂ (IsConnectionRow p.name) p.connections.zipIdx rows.connections
  behaviors : List.Forall₂ (IsBehaviorRow p.name) p.behaviors.zipIdx rows.behaviors
  evolution : List.Forall₂ (IsEvolutionRow p.name) p.evolution.zipIdx rows.evolution

end Rows

/-- The value in a column of a row. -/
def Row.value? (r : Row) (column : Text) : Option Value :=
  (r.columns.zip r.values).lookup column

/-- The text in a column. -/
def Row.text? (r : Row) (column : Text) : Option Text :=
  match r.value? column with
  | some (.literal text) => some text
  | _ => none

/-- The number in a column. -/
def Row.number? (r : Row) (column : Text) : Option Binary64 :=
  match r.value? column with
  | some (.bare word) => Binary64.read? word
  | _ => none

/-- The position in the column for it. -/
def Row.position? (r : Row) : Option Nat :=
  match r.value? "idx" with
  | some (.bare word) =>
    if word.all Text.isDigitByte then some (Text.digitsValue word) else none
  | _ => none

/-- The rows that statements insert into a table. -/
def rowsOf (t : Table) (statements : List Statement) : List Row :=
  statements.filterMap fun
    | .insert r => if r.table = t.name then some r else none
    | .create _ _ => none

/-- The key of a row. -/
def Row.key? (r : Row) : Option (Text × Nat) := do
  let personality ← r.text? "personality"
  let position ← r.position?
  return (personality, position)

/-- A modifier from its document text. -/
def readModifier? : Json → Option Modifier
  | .string text => (Fragment.modifier text).result.toOption
  | _ => none

/-- Modifiers from the list of their document texts. -/
def readModifiers? (text : Text) : Option (List Modifier) :=
  match Json.read? text with
  | some (.list items) => items.mapM readModifier?
  | _ => none

/-- The trait of a row. -/
def Row.trait? (r : Row) : Option Trait := do
  let name ← r.text? "name"
  let strength ← r.number? "strength"
  let list ← r.text? "modifiers"
  let modifiers ← readModifiers? list
  return ⟨name, strength, modifiers.map some⟩

/-- The behavior of a row. -/
def Row.behavior? (r : Row) : Option BehaviorRule := do
  let conditionText ← r.text? "condition_text"
  let actionText ← r.text? "action_text"
  let condition ← (Fragment.condition conditionText).result.toOption
  let action ← (Fragment.action actionText).result.toOption
  return ⟨some condition, some action⟩

/-- The evolution rule of a row. -/
def Row.evolution? (r : Row) : Option EvolutionRule := do
  let triggerText ← r.text? "trigger_text"
  let effectText ← r.text? "effect_text"
  let trigger ← (Fragment.trigger triggerText).result.toOption
  let effect ← (Fragment.effect effectText).result.toOption
  return ⟨some trigger, some effect⟩

/-- The traits, behaviors and evolution rules that statements insert. -/
def restored? (statements : List Statement) :
    Option (List Trait × List BehaviorRule × List EvolutionRule) := do
  let traits ← (rowsOf .traits statements).mapM Row.trait?
  let behaviors ← (rowsOf .behaviors statements).mapM Row.behavior?
  let evolution ← (rowsOf .evolution statements).mapM Row.evolution?
  return (traits, behaviors, evolution)

/-- The key of a row is the name of the personality and the position. -/
theorem Table.row_key (t : Table) (personality : Text) (position : Nat) (values : List Value) :
    (t.row personality position values).key? = some (personality, position) := by
  have digits : (Text.ofNat position).all Text.isDigitByte = true :=
    List.all_eq_true.mpr (Text.ofNat_digits position)
  have first : (t.row personality position values).value? "personality" =
      some (.literal personality) := rfl
  have second : (t.row personality position values).value? "idx" =
      some (.bare (Text.ofNat position)) := rfl
  simp [Row.key?, Row.text?, Row.position?, first, second, digits, Text.digitsValue_ofNat]

/-- Two tables have different names. -/
theorem Table.name_inj {first second : Table} : first.name = second.name ↔ first = second := by
  cases first <;> cases second <;> decide +kernel

/-- The text is read as rows of a table, which are numbered from zero. -/
structure Fills (t : Table) (personality text : Text) (found : List Row) : Prop where
  closed : dialect.Closed text (found.flatMap fun r =>
    (Statement.insert r).lexemes ++ [.symbol 59])
  readable : ∀ r ∈ found, (Statement.insert r).Readable
  table : ∀ r ∈ found, r.table = t.name
  keys : found.map Row.key? = (List.range found.length).map fun i => some (personality, i)

/-- Texts that insert rows one by one insert them one after the other. -/
theorem inserts_flatten {α : Type} {t : Table} {personality : Text}
    {tells : α × Nat → Row → Prop} {entries : List (α × Nat)} {texts : List Text}
    (each : List.Forall₂ (fun entry text => ∃ r, Inserts t personality entry.2 text r ∧
      tells entry r) entries texts) :
    ∃ found, List.Forall₂ tells entries found ∧
      dialect.Closed texts.flatten (found.flatMap fun r =>
      (Statement.insert r).lexemes ++ [.symbol 59]) ∧
      (∀ r ∈ found, (Statement.insert r).Readable ∧ r.table = t.name) ∧
      found.map Row.key? = entries.map fun entry => some (personality, entry.2) := by
  induction each with
  | nil => exact ⟨[], .nil, .nil, by simp, rfl⟩
  | cons first _ inductionHypothesis =>
    obtain ⟨found, told, closed, readable, keys⟩ := inductionHypothesis
    obtain ⟨_, ⟨here, values, rfl, sameLength⟩, tells⟩ := first
    refine ⟨_ :: found, .cons tells told, here.append closed,
      List.forall_mem_cons.mpr ⟨⟨?_, rfl⟩, readable⟩, ?_⟩
    · exact Row.readable _ (by simpa [Table.row, Table.columnNames] using sameLength)
    · rw [List.map_cons, List.map_cons, Table.row_key, keys]

/-- Entries that are written one by one are read one by one. -/
theorem rows_fill {α : Type} {personality text : Text} {row : Nat → α → Except Missing Text}
    {items : List α} (t : Table) (tells : α × Nat → Row → Prop)
    (each : ∀ item position rowText, row position item = .ok rowText →
      ∃ r, Inserts t personality position rowText r ∧ tells (item, position) r)
    (written : rows row items = .ok text) :
    ∃ found, List.Forall₂ tells items.zipIdx found ∧ Fills t personality text found := by
  obtain ⟨texts, all, written⟩ := exists_of_bind_ok written
  obtain rfl := Except.ok.inj written
  obtain ⟨found, told, closed, readable, keys⟩ :=
    inserts_flatten ((Structured.forall₂_of_mapM all).imp fun _ rowText => each _ _ rowText)
  refine ⟨found, told, closed, fun r member => (readable r member).1, fun r member =>
    (readable r member).2, ?_⟩
  have positions : items.zipIdx.map Prod.snd = List.range found.length := by
    rw [List.zipIdx_map_snd, ← told.length_eq, List.length_zipIdx, List.range_eq_range']
  rw [keys, ← positions, List.map_map]
  rfl

/-- Rows of one table are all among the rows of that table, and none among those
of another. -/
theorem rowsOf_insert {t other : Table} {found : List Row}
    (table : ∀ r ∈ found, r.table = other.name) :
    rowsOf t (found.map .insert) = if t = other then found else [] := by
  rw [rowsOf, List.filterMap_map]
  split
  · rename_i same
    refine (List.filterMap_congr fun r member => ?_).trans List.filterMap_some
    simp [table r member, same]
  · rename_i different
    refine List.filterMap_eq_nil_iff.mpr fun r member => ?_
    simp [table r member, Table.name_inj, Ne.symm different]

/-- Rows of several tables, one after the other. -/
theorem rowsOf_append (t : Table) (first second : List Statement) :
    rowsOf t (first ++ second) = rowsOf t first ++ rowsOf t second := List.filterMap_append

/-- What was written is read: the five tables and the rows of every list, in which the
keys are numbered. -/
theorem emit_read {p : Personality} {text : Text} (emitted : emit p = .ok text) :
    ∃ rows : Rows, rows.Tell p ∧ read? text = some rows.statements ∧
      ∀ t, rowsOf t rows.statements = rows.ofTable t ∧
        (rows.ofTable t).map Row.key? = (List.range (rows.ofTable t).length).map fun i =>
        some (p.name, i) := by
  obtain ⟨traitText, traitsWritten, emitted⟩ := exists_of_bind_ok emitted
  obtain ⟨topicText, topicsWritten, emitted⟩ := exists_of_bind_ok emitted
  obtain ⟨connectionText, connectionsWritten, emitted⟩ := exists_of_bind_ok emitted
  obtain ⟨behaviorText, behaviorsWritten, emitted⟩ := exists_of_bind_ok emitted
  obtain ⟨evolutionText, evolutionWritten, emitted⟩ := exists_of_bind_ok emitted
  obtain rfl := Except.ok.inj emitted
  obtain ⟨traits, traitsTold, traitsFill⟩ :=
    rows_fill .traits (IsTraitRow p.name) (fun _ _ _ => traitRow_inserts) traitsWritten
  obtain ⟨topics, topicsTold, topicsFill⟩ := rows_fill .topics (IsTopicRow p.name)
    (fun entry position _ written => Except.ok.inj written ▸ topicRow_inserts p.name
      position entry.1 entry.2) topicsWritten
  obtain ⟨connections, connectionsTold, connectionsFill⟩ :=
    rows_fill .connections (IsConnectionRow p.name)
    (fun c position _ written => Except.ok.inj written ▸ connectionRow_inserts p.name
      position c) connectionsWritten
  obtain ⟨behaviors, behaviorsTold, behaviorsFill⟩ :=
    rows_fill .behaviors (IsBehaviorRow p.name) (fun _ _ _ => behaviorRow_inserts)
      behaviorsWritten
  obtain ⟨evolution, evolutionTold, evolutionFill⟩ :=
    rows_fill .evolution (IsEvolutionRow p.name) (fun _ _ _ => evolutionRow_inserts)
      evolutionWritten
  refine ⟨⟨traits, topics, connections, behaviors, evolution⟩,
    ⟨traitsTold, topicsTold, connectionsTold, behaviorsTold, evolutionTold⟩, ?_, fun t =>
      ⟨?_, ?_⟩⟩
  · refine read?_closed ?_ ?_
    · have whole :=
        ((((schema_closed.1.append traitsFill.closed).append topicsFill.closed).append
        connectionsFill.closed).append behaviorsFill.closed).append evolutionFill.closed
      simpa [Rows.statements, List.flatMap_append, List.flatMap_map,
        List.append_assoc] using whole
    · intro s member
      rcases List.mem_append.mp member with created | inserted
      · exact schema_closed.2 s created
      · obtain ⟨r, among, rfl⟩ := List.mem_map.mp inserted
        simp only [List.mem_append] at among
        rcases among with (((one | one) | one) | one) | one
        · exact traitsFill.readable r one
        · exact topicsFill.readable r one
        · exact connectionsFill.readable r one
        · exact behaviorsFill.readable r one
        · exact evolutionFill.readable r one
  · have noRow : rowsOf t creations = [] := by cases t <;> rfl
    simp only [Rows.statements, rowsOf_append, List.map_append, noRow, List.nil_append,
      rowsOf_insert traitsFill.table, rowsOf_insert topicsFill.table,
      rowsOf_insert connectionsFill.table, rowsOf_insert behaviorsFill.table,
      rowsOf_insert evolutionFill.table]
    cases t <;> simp [Rows.ofTable]
  · cases t with
    | traits => exact traitsFill.keys
    | topics => exact topicsFill.keys
    | connections => exact connectionsFill.keys
    | behaviors => exact behaviorsFill.keys
    | evolution => exact evolutionFill.keys

/-- Modifiers are read from the list of their document texts. -/
theorem readModifiers?_written {ms : List Modifier} {texts : List Text}
    (printable : ∀ m ∈ ms, m.Printable)
    (utf8 : ∀ m ∈ ms, ∀ text ∈ m.texts, text.isUtf8 = true)
    (written : (ms.map some).mapM writeModifier = .ok texts) :
    readModifiers? (Json.write [] (.list (texts.map .string))) = some ms := by
  have fits : (Json.list (texts.map .string)).Fits 1 := by
    intro item member
    obtain ⟨text, -, rfl⟩ := List.mem_map.mp member
    trivial
  have read : Json.read? (Json.write [] (.list (texts.map .string))) =
      some (Json.list (texts.map .string)).repaired :=
    Json.read?_write (by simp) (fits.more (Json.depthLimit - 1))
  rw [List.mapM_map] at written
  have each : List.Forall₂ (fun json m => readModifier? json = some m)
      (texts.map fun text => (Json.string text).repaired)
      (ms.map (Modifier.mapTexts Text.toUtf8)) := by
    refine Structured.forall₂_repaired printable written fun m text holds modifierWritten => ?_
    simp [readModifier?, Json.repaired, Fragment.modifier_repaired holds modifierWritten,
      Except.toOption]
  have same : ms.map (Modifier.mapTexts Text.toUtf8) = ms := by
    refine (List.map_congr_left fun m member => ?_).trans (List.map_id ms)
    exact (Modifier.mapTexts_eq_self_iff m).mpr fun text among =>
      (Text.isUtf8_iff text).mp (utf8 m member text among)
  rw [same] at each
  have items := mapM_some each
  rw [List.mapM_map] at items
  simpa [readModifiers?, read, Json.repaired, Function.comp_def] using items

/-- The row of a trait leads back to it. -/
theorem trait?_told {personality : Text} {t : Trait} {position : Nat} {r : Row}
    (printable : t.Printable) (utf8 : ∀ text ∈ t.texts, text.isUtf8 = true)
    (told : IsTraitRow personality (t, position) r) :
    r.trait? = some t := by
  obtain ⟨name, strength, modifiers⟩ := t
  obtain ⟨texts, written, rfl⟩ := told
  obtain ⟨ms, rfl, allPrintable⟩ := Grammar.present_all printable.modifiers
  have modifiersRead : readModifiers? (Json.write [] (.list (texts.map .string))) =
      some ms := by
    refine readModifiers?_written allPrintable (fun m member text among =>
      utf8 text ?_) written
    exact List.mem_cons_of_mem _
      (List.mem_flatMap.mpr ⟨some m, List.mem_map_of_mem member, by simpa using among⟩)
  have nameRead : (Table.traits.row personality position [.literal name, .bare strength.text,
      .literal (Json.write [] (.list (texts.map .string)))]).value? "name" =
        some (.literal name) := rfl
  have strengthRead :
      (Table.traits.row personality position [.literal name, .bare strength.text,
      .literal (Json.write [] (.list (texts.map .string)))]).value? "strength" =
        some (.bare strength.text) := rfl
  have listRead : (Table.traits.row personality position [.literal name, .bare strength.text,
      .literal (Json.write [] (.list (texts.map .string)))]).value? "modifiers" =
        some (.literal (Json.write [] (.list (texts.map .string)))) := rfl
  have number : Binary64.read? strength.text = some strength :=
    Binary64.read?_write Layout.plain strength printable.strength
  simp [Row.trait?, Row.text?, Row.number?, nameRead, strengthRead, listRead, number,
    modifiersRead]

/-- The row of a behavior leads back to it. -/
theorem behavior?_told {personality : Text} {b : BehaviorRule} {position : Nat} {r : Row}
    (printable : b.Printable)
    (told : IsBehaviorRow personality (b, position) r) : r.behavior? = some b := by
  obtain ⟨condition, action⟩ := b
  obtain ⟨⟨c, rfl, conditionPrintable⟩, ⟨a, rfl, actionPrintable⟩⟩ := printable
  obtain ⟨_, _, ⟨⟩, ⟨⟩, rfl⟩ := told
  have conditionRead : (Table.behaviors.row personality position [.literal c.write,
      .literal a.write]).value?
      "condition_text" = some (.literal c.write) := rfl
  have actionRead : (Table.behaviors.row personality position [.literal c.write,
      .literal a.write]).value?
      "action_text" = some (.literal a.write) := rfl
  simp [Row.behavior?, Row.text?, conditionRead, actionRead,
    Fragment.condition_written conditionPrintable,
    Fragment.action_written actionPrintable, Except.toOption]

/-- The row of an evolution rule leads back to it. -/
theorem evolution?_told {personality : Text} {e : EvolutionRule} {position : Nat} {r : Row}
    (printable : e.Printable)
    (told : IsEvolutionRow personality (e, position) r) : r.evolution? = some e := by
  obtain ⟨trigger, effect⟩ := e
  obtain ⟨⟨t, rfl, triggerPrintable⟩, ⟨x, rfl, effectPrintable⟩⟩ := printable
  obtain ⟨_, effectText, ⟨⟩, effectWritten, rfl⟩ := told
  have triggerRead : (Table.evolution.row personality position [.literal t.write,
      .literal effectText]).value?
      "trigger_text" = some (.literal t.write) := rfl
  have effectRead : (Table.evolution.row personality position [.literal t.write,
      .literal effectText]).value?
      "effect_text" = some (.literal effectText) := rfl
  simp [Row.evolution?, Row.text?, triggerRead, effectRead,
    Fragment.trigger_written triggerPrintable,
    Fragment.effect_written effectPrintable effectWritten, Except.toOption]

/-- Rows that tell of entries lead back to them if each one does. -/
theorem mapM_told {α : Type} {tells : α × Nat → Row → Prop} {read : Row → Option α}
    {items : List α}
    {found : List Row} (condition : α → Prop) (holds : ∀ item ∈ items, condition item)
    (told : List.Forall₂ tells items.zipIdx found)
    (leads : ∀ item position r, condition item → tells (item, position) r →
      read r = some item) :
    found.mapM read = some items := by
  have conditions : ∀ entry ∈ items.zipIdx, condition entry.1 := fun entry member =>
    holds entry.1 (List.fst_mem_of_mem_zipIdx member)
  have each := (List.forall₂_and_left items.zipIdx found).mpr ⟨conditions, told⟩
  have pairs : List.Forall₂ (fun r item => read r = some item) found
      (items.zipIdx.map Prod.fst) := by
    rw [List.forall₂_map_right_iff]
    exact (each.imp fun entry r both => leads entry.1 entry.2 r both.1 both.2).flip
  rw [List.zipIdx_map_fst] at pairs
  exact mapM_some pairs

/-- The rows of a printable personality whose texts are valid UTF-8 lead back to its
traits, its behaviors and its evolution rules. -/
theorem restored?_told {p : Personality} {rows : Rows} (told : rows.Tell p)
    (tables : ∀ t, rowsOf t rows.statements = rows.ofTable t) (printable : p.Printable)
    (utf8 : ∀ text ∈ p.texts, text.isUtf8 = true) :
    restored? rows.statements = some (p.traits, p.behaviors, p.evolution) := by
  have traits : rows.traits.mapM Row.trait? = some p.traits := by
    refine mapM_told (fun t => t.Printable ∧ ∀ text ∈ t.texts, text.isUtf8 = true) ?_
      told.traits
      fun t position r holds => trait?_told holds.1 holds.2
    refine fun t member => ⟨printable.traits t member, fun text among => utf8 text ?_⟩
    exact List.mem_cons_of_mem _
      (List.mem_append_left _ (List.mem_flatMap.mpr ⟨t, member, among⟩))
  have behaviors : rows.behaviors.mapM Row.behavior? = some p.behaviors :=
    mapM_told BehaviorRule.Printable printable.behaviors told.behaviors fun b position r =>
      behavior?_told
  have evolution : rows.evolution.mapM Row.evolution? = some p.evolution :=
    mapM_told EvolutionRule.Printable printable.evolution told.evolution fun e position r =>
      evolution?_told
  simp [restored?, tables, Rows.ofTable, traits, behaviors, evolution]

/-- The script of a personality that has all its parts is read as what the personality is,
whatever bytes its texts are made of. There is a script; a database reads in it the five
tables and then one row for each trait, topic, connection, behavior and evolution rule, in
the order of the lists, with the texts as they were. In each table the rows are numbered
from zero, so no two rows of a table have the same key. If the personality can be printed
and its texts are valid UTF-8, then the rows lead back to its traits, its behaviors and
its evolution rules. -/
theorem emit_readable {p : Personality} (complete : p.Complete) :
    ∃ text, emit p = .ok text ∧ ∃ rows : Rows, read? text = some rows.statements ∧
      rows.Tell p ∧
      (∀ t, (rowsOf t rows.statements).map Row.key? =
          (List.range (rowsOf t rows.statements).length).map (fun i => some (p.name, i)) ∧
        ((rowsOf t rows.statements).map Row.key?).Nodup) ∧
      (p.Printable → (∀ text ∈ p.texts, text.isUtf8 = true) →
        restored? rows.statements = some (p.traits, p.behaviors, p.evolution)) := by
  have succeeds := emit_succeeds complete
  cases emitted : emit p with
  | error e =>
    rw [emitted] at succeeds
    exact succeeds.elim
  | ok text =>
    obtain ⟨rows, told, read, tables⟩ := emit_read emitted
    refine ⟨text, rfl, rows, read, told, fun t => ?_, restored?_told told fun t =>
      (tables t).1⟩
    have keys := (tables t).2
    rw [← (tables t).1] at keys
    refine ⟨keys, ?_⟩
    rw [keys]
    refine List.nodup_range.map fun i j same => ?_
    simpa using same

/-- A personality whose texts would end their literals and their statements if they were
not quoted. -/
def hostile : Personality where
  name := "'); DROP TABLE traits; --"
  traits :=
    [⟨"it's", .finite false Binary64.zeroCode, [some (.when (some (.mood "don't; ''")))]⟩]
  knowledge := [⟨"'", [⟨"/*", .expert⟩], []⟩,
    ⟨"''", [⟨";", .beginner⟩], [⟨"'", "''", .finite true Binary64.zeroCode, none⟩]⟩]
  behaviors := [⟨some (.context "\\'"), some (.seek "'")⟩]
  evolution := [⟨some (.learns ";'"), some (.unlock "')")⟩]

/-- Each part of that personality can be printed. -/
theorem hostile_printable : hostile.Printable where
  name := by decide
  traits := by
    have mood : Present Modifier.Printable (some (.when (some (.mood "don't; ''")))) :=
      ⟨_, rfl, _, rfl, show Text.Quotable "don't; ''" by decide⟩
    simp only [hostile, List.forall_mem_cons, List.not_mem_nil, false_implies, implies_true,
      and_true]
    exact ⟨by decide, rfl, by simpa using mood⟩
  knowledge := by
    simp only [hostile, List.forall_mem_cons, List.not_mem_nil, false_implies, implies_true,
      and_true]
    refine ⟨⟨by decide, by simpa using ⟨by decide, by decide⟩, by simp⟩, by
      decide, by simpa using ⟨by decide, by decide⟩, ?_⟩
    simpa using ⟨by decide, by decide, rfl, by simp⟩
  behaviors := by
    simp only [hostile, List.forall_mem_cons, List.not_mem_nil, false_implies, implies_true,
      and_true]
    exact ⟨⟨_, rfl, show Text.Quotable "\\'" by decide⟩,
      ⟨_, rfl, show Text.Quotable "'" by decide⟩⟩
  evolution := by
    simp only [hostile, List.forall_mem_cons, List.not_mem_nil, false_implies, implies_true,
      and_true]
    exact ⟨⟨_, rfl, show Text.Quotable ";'" by decide⟩,
      ⟨_, rfl, show Text.Quotable "')" by decide⟩⟩

/-- The script reads back to the rows that tell that personality, and to the
personality itself. -/
theorem emit_readable_hostile :
    hostile.Complete ∧ hostile.Printable ∧ ∃ text, emit hostile = .ok text ∧ ∃ rows : Rows,
      read? text = some rows.statements ∧ rows.Tell hostile ∧
        restored? rows.statements = some (hostile.traits, hostile.behaviors,
        hostile.evolution) := by
  have complete := hostile_printable.storable.complete
  obtain ⟨text, emitted, rows, read, told, -, restores⟩ := emit_readable complete
  exact ⟨complete, hostile_printable, text, emitted, rows, read, told,
    restores hostile_printable (by decide +kernel)⟩

end Persona.Sql
