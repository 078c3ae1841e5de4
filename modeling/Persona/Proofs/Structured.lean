import Mathlib.Data.List.Forall2
import Persona.Structured
import Persona.Proofs.Grammar.Fragment
import Persona.Proofs.Json.Values
import Persona.Proofs.Personality.Storable

/-!
# The structured target reads back

The document of a personality, written as JSON with any blank indentation, is
decoded to the personality with its texts repaired. Three paths are followed: names,
words for levels and numbers are fields of their own; modifiers and the parts of
rules are fragments inside strings; and everything passes through the repair of
strings on the way.
-/

namespace Persona.Structured

/-- A trait entry with its texts repaired. -/
def TraitEntry.repaired (t : TraitEntry) : TraitEntry :=
  ⟨t.name.toUtf8, t.strength, { items := t.modifiers.items.map Text.toUtf8 }⟩

/-- A topic entry with its texts repaired. -/
def TopicEntry.repaired (t : TopicEntry) : TopicEntry := ⟨t.name.toUtf8, t.level.toUtf8⟩

/-- A connection entry with its texts repaired. -/
def ConnectionEntry.repaired (c : ConnectionEntry) : ConnectionEntry :=
  ⟨c.source.toUtf8, c.target.toUtf8, c.strength, c.rate⟩

/-- A domain entry with its texts repaired. -/
def DomainEntry.repaired (d : DomainEntry) : DomainEntry :=
  ⟨d.name.toUtf8, { items := d.topics.items.map TopicEntry.repaired },
    { items := d.connections.items.map ConnectionEntry.repaired }⟩

/-- A behavior entry with its texts repaired. -/
def BehaviorEntry.repaired (b : BehaviorEntry) : BehaviorEntry :=
  ⟨b.condition.toUtf8, b.action.toUtf8⟩

/-- An evolution entry with its texts repaired. -/
def EvolutionEntry.repaired (e : EvolutionEntry) : EvolutionEntry :=
  ⟨e.trigger.toUtf8, e.effect.toUtf8⟩

/-- A document with its texts repaired. -/
def Document.repaired (d : Document) : Document :=
  ⟨d.name.toUtf8, { items := d.traits.items.map TraitEntry.repaired },
    { items := d.knowledge.items.map DomainEntry.repaired },
    { items := d.behaviors.items.map BehaviorEntry.repaired },
    { items := d.evolution.items.map EvolutionEntry.repaired }⟩

/-- Work that succeeds has a first step that succeeds. -/
theorem exists_of_bind_ok {ε α β : Type} {first : Except ε α} {next : α → Except ε β}
    {result : β} (all : first >>= next = .ok result) : ∃ value, first = .ok value ∧
    next value = .ok result := by
  cases first with
  | error e => cases all
  | ok value => exact ⟨value, rfl, all⟩

/-- Seeing a failure differently changes nothing about success. -/
theorem mapError_eq_ok {ε δ α : Type} {x : Except ε α} {f : ε → δ} {value : α} :
    x.mapError f = .ok value ↔ x = .ok value := by
  cases x <;> simp [Except.mapError]

/-- Work that succeeds on every member has a result for each. -/
theorem forall₂_of_mapM {ε α β : Type} {f : α → Except ε β} {xs : List α} {ys : List β}
    (all : xs.mapM f = .ok ys) : List.Forall₂ (fun x y => f x = .ok y) xs ys := by
  induction xs generalizing ys with
  | nil =>
    obtain rfl := Except.ok.inj all
    exact .nil
  | cons x xs inductionHypothesis =>
    rw [List.mapM_cons] at all
    obtain ⟨y, first, all⟩ := exists_of_bind_ok all
    obtain ⟨rest, others, all⟩ := exists_of_bind_ok all
    obtain rfl := Except.ok.inj all
    exact .cons first (inductionHypothesis others)

/-- The value is nested at most so deep, and its repaired form is read as the entry. -/
def Decodes {α : Type} (levels : Nat) (read : Json → Option α) (entry : α)
    (json : Json) : Prop :=
  json.Fits levels ∧ read json.repaired = some entry

/-- More levels do no harm. -/
theorem Decodes.more {α : Type} {levels : Nat} {read : Json → Option α} {entry : α}
    {json : Json} (decodes : Decodes levels read entry json) (extra : Nat) :
    Decodes (levels + extra) read entry json :=
  ⟨decodes.1.more extra, decodes.2⟩

/-- A list is read entry by entry when nothing was there before. -/
theorem decodes_list {α : Type} {levels : Nat} {blank : α} {read : α → Json → Option α}
    {entries : List α}
    {items : List Json} (decodes : List.Forall₂ (Decodes levels (read blank)) entries items) :
    Decodes (levels + 1) (readList blank read {}) { items := entries } (.list items) := by
  have fits : (Json.list items).Fits (levels + 1) := by
    intro item member
    induction decodes with
    | nil => cases member
    | cons first _ inductionHypothesis =>
      rcases List.mem_cons.mp member with rfl | later
      · exact first.1
      · exact inductionHypothesis later
  have reads : readItems blank read [] (items.map Json.repaired) =
      some { items := entries } := by
    clear fits
    induction decodes with
    | nil => rfl
    | cons first _ inductionHypothesis =>
      simp [readItems, first.2, inductionHypothesis]
  refine ⟨fits, ?_⟩
  rw [Json.repaired, Json.repairedItems_eq_map]
  cases decodes with
  | nil => rfl
  | cons first others => simpa [readList] using reads

/-- A string is read as the repaired text. -/
theorem decodes_text (levels : Nat) (old text : Text) :
    Decodes levels (readText old) text.toUtf8 (.string text) :=
  ⟨by simp [Json.Fits], rfl⟩

/-- A finite number has a literal, which is read as the number. -/
theorem decodes_number (levels : Nat) {x : Binary64} {json : Json}
    (written : numberJson x = .ok json) :
    (∀ old, Decodes levels (readNumber old) x json) ∧
    Decodes levels readOptional (some x) json := by
  unfold numberJson at written
  split at written
  · rename_i finite
    obtain rfl := Except.ok.inj written
    have reads := Binary64.read?_write Layout.structured x finite
    have fits : (Json.number (Layout.structured.write x)).Fits levels := by
      simpa [Json.Fits] using Json.isNumber_write Layout.structured finite
    exact ⟨fun _ => ⟨fits, reads⟩, ⟨fits, by simp [Json.repaired, readOptional, reads]⟩⟩
  · cases written

/-- Fields of an object are read one after the other. -/
inductive DecodesFields {α : Type} (levels : Nat) (field : α → Text → Json → Option α) :
    (old : α) → (fields : List (Text × Json)) → (entry : α) → Prop
  | nil {old : α} : DecodesFields levels field old [] old
  | cons {old next entry : α} {name : Text} {value : Json} {fields : List (Text × Json)}
      (decodes : Decodes levels (field old (foldedName name.toUtf8)) next value)
      (others : DecodesFields levels field next fields entry) :
      DecodesFields levels field old ((name, value) :: fields) entry

/-- An object is read field by field. -/
theorem decodes_object {α : Type} {levels : Nat} {field : α → Text → Json → Option α}
    {old entry : α}
    {fields : List (Text × Json)} (decodes : DecodesFields levels field old fields entry) :
    Decodes (levels + 1) (readObject field old) entry (.object fields) := by
  induction decodes with
  | nil => exact ⟨by simp [Json.Fits], rfl⟩
  | cons first _ inductionHypothesis =>
    obtain ⟨fits, reads⟩ := inductionHypothesis
    refine ⟨List.forall_mem_cons.mpr ⟨first.1, fits⟩, ?_⟩
    rw [Json.repaired, Json.repairedFields, readObject, readFields, first.2]
    exact reads

/-- The first field is selected by its name, read, and stored in the entry. -/
theorem DecodesFields.select {α β : Type} {levels : Nat}
    {field : α → Text → Json → Option α} {old entry : α} {name : Text} {value : Json}
    {fields : List (Text × Json)} {read : Json → Option β} {store : β → α} {part : β}
    (selected : ∀ json, field old (foldedName name.toUtf8) json = (read json).map store)
    (decodes : Decodes levels read part value)
    (others : DecodesFields levels field (store part) fields entry) :
    DecodesFields levels field old ((name, value) :: fields) entry :=
  .cons ⟨decodes.1, by rw [selected, decodes.2, Option.map_some]⟩ others

/-- A trait entry is read back. -/
theorem TraitEntry.decodes {t : TraitEntry} {json : Json} (written : t.toJson = .ok json) :
    Decodes 2 (readTrait {}) t.repaired json := by
  obtain ⟨strength, number, written⟩ := exists_of_bind_ok written
  obtain rfl := Except.ok.inj written
  have modifiers : Decodes 1 (readList [] readText {})
      { items := t.modifiers.items.map Text.toUtf8 }
      (.list (t.modifiers.items.map .string)) := by
    apply decodes_list
    rw [List.forall₂_map_left_iff, List.forall₂_map_right_iff, List.forall₂_same]
    exact fun text _ => decodes_text 0 [] text
  exact decodes_object <|
    .select (fun _ => if_pos (by decide +kernel)) (decodes_text 1 [] t.name) <|
    .select (fun _ => (if_neg (by decide +kernel)).trans (if_pos (by decide +kernel)))
      ((decodes_number 1 number).1 .zero) <|
    .select (fun _ => (if_neg (by decide +kernel)).trans
      ((if_neg (by decide +kernel)).trans (if_pos (by decide +kernel)))) modifiers .nil

/-- A topic entry is read back. -/
theorem TopicEntry.decodes (t : TopicEntry) : Decodes 1 (readTopic {}) t.repaired t.toJson :=
  decodes_object <|
    .select (fun _ => if_pos (by decide +kernel)) (decodes_text 0 [] t.name) <|
    .select (fun _ => (if_neg (by decide +kernel)).trans (if_pos (by decide +kernel)))
      (decodes_text 0 [] t.level) .nil

/-- A connection entry is read back, with or without a rate. -/
theorem ConnectionEntry.decodes {c : ConnectionEntry} {json : Json}
    (written : c.toJson = .ok json) :
    Decodes 1 (readConnection {}) c.repaired json := by
  obtain ⟨source, target, strength, rate⟩ := c
  obtain ⟨strengthJson, number, written⟩ := exists_of_bind_ok written
  have fields {entry : ConnectionEntry} {more : List (Text × Json)}
      (others : DecodesFields 0 _ ⟨source.toUtf8, target.toUtf8, strength, none⟩ more entry) :
      Decodes 1 (readConnection {}) entry (.object (("from_domain", .string source) ::
        ("to_domain", .string target) :: ("strength", strengthJson) :: more)) :=
    decodes_object <|
      .select (fun _ => if_pos (by decide +kernel)) (decodes_text 0 [] source) <|
      .select (fun _ => (if_neg (by decide +kernel)).trans (if_pos (by decide +kernel)))
        (decodes_text 0 [] target) <|
      .select (fun _ => (if_neg (by decide +kernel)).trans ((if_neg (by decide +kernel)).trans
        (if_pos (by decide +kernel)))) ((decodes_number 0 number).1 .zero) others
  cases rate with
  | none =>
    obtain rfl := Except.ok.inj written
    exact fields .nil
  | some r =>
    obtain ⟨rateJson, rateNumber, written⟩ := exists_of_bind_ok written
    obtain rfl := Except.ok.inj written
    exact fields <| .select (fun _ =>
      (if_neg (by decide +kernel)).trans ((if_neg (by decide +kernel)).trans
      ((if_neg (by decide +kernel)).trans (if_pos (by decide +kernel)))))
      (decodes_number 0 rateNumber).2 .nil

/-- A domain entry is read back. -/
theorem DomainEntry.decodes {d : DomainEntry} {json : Json} (written : d.toJson = .ok json) :
    Decodes 3 (readDomain {}) d.repaired json := by
  obtain ⟨connectionJsons, connectionsWritten, written⟩ := exists_of_bind_ok written
  obtain rfl := Except.ok.inj written
  have topics : Decodes 2 (readList {} readTopic {})
      { items := d.topics.items.map TopicEntry.repaired }
      (.list (d.topics.items.map TopicEntry.toJson)) := by
    apply decodes_list
    rw [List.forall₂_map_left_iff, List.forall₂_map_right_iff, List.forall₂_same]
    exact fun t _ => t.decodes
  have connections : Decodes 2 (readList {} readConnection {})
      { items := d.connections.items.map ConnectionEntry.repaired }
        (.list connectionJsons) := by
    apply decodes_list
    rw [List.forall₂_map_left_iff]
    exact (forall₂_of_mapM connectionsWritten).imp fun _ _ => ConnectionEntry.decodes
  exact decodes_object <|
    .select (fun _ => if_pos (by decide +kernel)) (decodes_text 2 [] d.name) <|
    .select (fun _ => (if_neg (by decide +kernel)).trans (if_pos (by decide +kernel)))
      topics <|
    .select (fun _ => (if_neg (by decide +kernel)).trans ((if_neg (by decide +kernel)).trans
      (if_pos (by decide +kernel)))) connections .nil

/-- A behavior entry is read back. -/
theorem BehaviorEntry.decodes (b : BehaviorEntry) :
    Decodes 1 (readBehavior {}) b.repaired b.toJson :=
  decodes_object <|
    .select (fun _ => if_pos (by decide +kernel)) (decodes_text 0 [] b.condition) <|
    .select (fun _ => (if_neg (by decide +kernel)).trans (if_pos (by decide +kernel)))
      (decodes_text 0 [] b.action) .nil

/-- An evolution entry is read back. -/
theorem EvolutionEntry.decodes (e : EvolutionEntry) :
    Decodes 1 (readEvolution {}) e.repaired e.toJson :=
  decodes_object <|
    .select (fun _ => if_pos (by decide +kernel)) (decodes_text 0 [] e.trigger) <|
    .select (fun _ => (if_neg (by decide +kernel)).trans (if_pos (by decide +kernel)))
      (decodes_text 0 [] e.effect) .nil

/-- The whole document is read back. -/
theorem Document.decodes {d : Document} {json : Json} (written : d.toJson = .ok json) :
    Decodes 5 (readDocument {}) d.repaired json := by
  obtain ⟨traitJsons, traitsWritten, written⟩ := exists_of_bind_ok written
  obtain ⟨domainJsons, knowledgeWritten, written⟩ := exists_of_bind_ok written
  obtain rfl := Except.ok.inj written
  have traits : Decodes 4 (readList {} readTrait {})
      { items := d.traits.items.map TraitEntry.repaired }
      (.list traitJsons) := by
    apply decodes_list
    rw [List.forall₂_map_left_iff]
    exact (forall₂_of_mapM traitsWritten).imp fun _ _ traitWritten =>
      (TraitEntry.decodes traitWritten).more 1
  have knowledge : Decodes 4 (readList {} readDomain {})
      { items := d.knowledge.items.map DomainEntry.repaired }
      (.list domainJsons) := by
    apply decodes_list
    rw [List.forall₂_map_left_iff]
    exact (forall₂_of_mapM knowledgeWritten).imp fun _ _ => DomainEntry.decodes
  have behaviors : Decodes 4 (readList {} readBehavior {})
      { items := d.behaviors.items.map BehaviorEntry.repaired }
      (.list (d.behaviors.items.map BehaviorEntry.toJson)) := by
    apply decodes_list
    rw [List.forall₂_map_left_iff, List.forall₂_map_right_iff, List.forall₂_same]
    exact fun b _ => b.decodes.more 2
  have evolution : Decodes 4 (readList {} readEvolution {})
      { items := d.evolution.items.map EvolutionEntry.repaired }
      (.list (d.evolution.items.map EvolutionEntry.toJson)) := by
    apply decodes_list
    rw [List.forall₂_map_left_iff, List.forall₂_map_right_iff, List.forall₂_same]
    exact fun e _ => e.decodes.more 2
  exact decodes_object <|
    .select (fun _ => if_pos (by decide +kernel)) (decodes_text 4 [] d.name) <|
    .select (fun _ => (if_neg (by decide +kernel)).trans (if_pos (by decide +kernel)))
      traits <|
    .select (fun _ => (if_neg (by decide +kernel)).trans ((if_neg (by decide +kernel)).trans
      (if_pos (by decide +kernel)))) knowledge <|
    .select (fun _ => (if_neg (by decide +kernel)).trans ((if_neg (by decide +kernel)).trans
      ((if_neg (by decide +kernel)).trans (if_pos (by decide +kernel))))) behaviors <|
    .select (fun _ => (if_neg (by decide +kernel)).trans ((if_neg (by decide +kernel)).trans
      ((if_neg (by decide +kernel)).trans
        ((if_neg (by decide +kernel)).trans (if_pos (by decide +kernel))))))
      evolution .nil

/-- Work that records nothing hands on its value. -/
theorem ok_bind {ε α β : Type} (value : α) (next : α → Logged ε β) :
    (⟨[], .ok value⟩ : Logged ε α) >>= next = next value :=
  pure_bind value next

/-- Work on every member that records nothing records nothing. -/
theorem mapM_ok {ε α β : Type} {f : α → Logged ε β} {xs : List α} {ys : List β}
    (all : List.Forall₂ (fun x y => f x = ⟨[], .ok y⟩) xs ys) : xs.mapM f = ⟨[], .ok ys⟩ := by
  induction all with
  | nil => rfl
  | cons first _ inductionHypothesis =>
    rw [List.mapM_cons, first, inductionHypothesis]
    rfl

/-- The same for work that is told the position of a member. -/
theorem mapM_zipIdx_ok {ε α β : Type} {f : Nat → α → Logged ε β} {xs : List α} {ys : List β}
    (start : Nat) (all : List.Forall₂ (fun x y => ∀ i, f i x = ⟨[], .ok y⟩) xs ys) :
    ((xs.zipIdx start).mapM fun (x, i) => f i x) = ⟨[], .ok ys⟩ := by
  induction all generalizing start with
  | nil => rfl
  | cons first _ inductionHypothesis =>
    rw [List.zipIdx_cons, List.mapM_cons, inductionHypothesis]
    dsimp only
    rw [first]
    rfl

/-- A stored part is read where it stands. -/
theorem stored_ok {α : Type} (place : Text) {read : Text → Logged ParseError α}
    {text : Text} {value : α}
    (reads : read text = ⟨[], .ok value⟩) : stored place read text = ⟨[], .ok value⟩ := by
  rw [stored, reads]
  rfl

/-- Members that satisfy a condition are stored one by one, and each repaired entry is
read as the repaired member. -/
theorem forall₂_repaired {α β γ ε : Type} {condition : α → Prop} {store : α → Except ε β}
    {entryRepaired : β → γ}
    {repaired : α → α} {reads : γ → α → Prop} {xs : List α} {entries : List β}
    (holds : ∀ x ∈ xs, condition x) (written : xs.mapM store = .ok entries)
    (readsBack : ∀ x entry, condition x → store x = .ok entry →
      reads (entryRepaired entry) (repaired x)) :
    List.Forall₂ reads (entries.map entryRepaired) (xs.map repaired) := by
  rw [List.forall₂_map_left_iff, List.forall₂_map_right_iff]
  have stored := (List.forall₂_and_left xs entries).mpr ⟨holds, forall₂_of_mapM written⟩
  exact (stored.imp fun x entry both => readsBack x entry both.1 both.2).flip

/-- The repaired entry of a trait is the repaired trait. -/
theorem TraitEntry.toTrait_repaired {t : Trait} {entry : TraitEntry} (storable : t.Storable)
    (written : TraitEntry.ofTrait t = .ok entry) :
    entry.repaired.toTrait = ⟨[], .ok (t.mapTexts Text.toUtf8)⟩ := by
  obtain ⟨name, strength, modifiers⟩ := t
  obtain ⟨ms, rfl, allPrintable⟩ := Grammar.present_all storable.modifiers
  obtain ⟨texts, modifiersWritten, written⟩ := exists_of_bind_ok written
  obtain rfl := Except.ok.inj written
  have modifiersRead (place : Text) :
      (texts.map Text.toUtf8).mapM (stored place Fragment.modifier) =
      ⟨[], .ok (ms.map (Modifier.mapTexts Text.toUtf8))⟩ := by
    rw [List.mapM_map] at modifiersWritten
    refine mapM_ok (forall₂_repaired allPrintable modifiersWritten
      fun m text holds modifierWritten => ?_)
    exact stored_ok place (Fragment.modifier_repaired holds modifierWritten)
  have present : (ms.map (Modifier.mapTexts Text.toUtf8)).map some =
      (ms.map some).map (Option.map (Modifier.mapTexts Text.toUtf8)) := by simp
  simp only [TraitEntry.toTrait, TraitEntry.repaired, modifiersRead, ok_bind, present]
  rfl

/-- The repaired entry of a domain is the repaired domain. -/
theorem DomainEntry.toDomain_repaired {d : Domain} (storable : d.Storable) :
    (DomainEntry.ofDomain d).repaired.toDomain = ⟨[], .ok (d.mapTexts Text.toUtf8)⟩ := by
  have words : ∀ level ∈ Level.all, level.text.toUtf8 = level.text := by decide +kernel
  have topicsRead : ((DomainEntry.ofDomain d).topics.items.map TopicEntry.repaired).mapM
      (TopicEntry.toTopic d.name.toUtf8) =
        ⟨[], .ok (d.topics.map (Topic.mapTexts Text.toUtf8))⟩ := by
    apply mapM_ok
    rw [DomainEntry.ofDomain, List.map_map, List.forall₂_map_left_iff,
      List.forall₂_map_right_iff, List.forall₂_same]
    intro t member
    have listed := storable.levels t member
    simp only [TopicEntry.toTopic, TopicEntry.repaired, Function.comp_apply, words _ listed,
      Grammar.ofWord?_level listed]
    rfl
  have connections :
      ((DomainEntry.ofDomain d).connections.items.map ConnectionEntry.repaired).map
      (fun c => (⟨c.source, c.target, c.strength, c.rate⟩ : Connection)) =
        d.connections.map (Connection.mapTexts Text.toUtf8) := by
    simp [DomainEntry.ofDomain, ConnectionEntry.repaired, Connection.mapTexts]
  have named : (DomainEntry.ofDomain d).name = d.name := rfl
  simp only [DomainEntry.toDomain, DomainEntry.repaired, named, topicsRead, connections,
    ok_bind]
  rfl

/-- The repaired entry of a behavior is the repaired behavior, at every position. -/
theorem BehaviorEntry.toRule_repaired {r : BehaviorRule} {entry : BehaviorEntry}
    (printable : r.Printable)
    (written : BehaviorEntry.ofRule r = .ok entry) (position : Nat) :
    entry.repaired.toRule position = ⟨[], .ok (r.mapTexts Text.toUtf8)⟩ := by
  obtain ⟨condition, action⟩ := r
  obtain ⟨⟨c, rfl, conditionPrintable⟩, ⟨a, rfl, actionPrintable⟩⟩ := printable
  obtain rfl := Except.ok.inj written
  have conditionRead := stored_ok ("behavior " ++ Text.ofNat position ++ ": condition")
    (Fragment.condition_repaired conditionPrintable)
  have actionRead := stored_ok ("behavior " ++ Text.ofNat position ++ ": action")
    (Fragment.action_repaired actionPrintable)
  simp only [BehaviorEntry.toRule, BehaviorEntry.repaired, conditionRead, actionRead]
  rfl

/-- The repaired entry of an evolution rule is the repaired rule, at every position. -/
theorem EvolutionEntry.toRule_repaired {r : EvolutionRule} {entry : EvolutionEntry}
    (printable : r.Printable)
    (written : EvolutionEntry.ofRule r = .ok entry) (position : Nat) :
    entry.repaired.toRule position = ⟨[], .ok (r.mapTexts Text.toUtf8)⟩ := by
  obtain ⟨trigger, effect⟩ := r
  obtain ⟨⟨t, rfl, triggerPrintable⟩, ⟨e, rfl, effectPrintable⟩⟩ := printable
  obtain ⟨_, triggerWritten, written⟩ := exists_of_bind_ok written
  obtain rfl := Except.ok.inj triggerWritten
  obtain ⟨effectText, effectWritten, written⟩ := exists_of_bind_ok written
  obtain rfl := Except.ok.inj written
  have triggerRead := stored_ok ("evolution rule " ++ Text.ofNat position ++ ": trigger")
    (Fragment.trigger_repaired triggerPrintable)
  have effectRead := stored_ok ("evolution rule " ++ Text.ofNat position ++ ": effect")
    (Fragment.effect_repaired effectPrintable effectWritten)
  simp only [EvolutionEntry.toRule, EvolutionEntry.repaired, triggerRead, effectRead]
  rfl

/-- The repaired document of a personality is the repaired personality. -/
theorem Document.toPersonality_repaired {p : Personality} {d : Document}
    (storable : p.Storable) (written : Document.ofPersonality p = .ok d) :
    d.repaired.toPersonality = ⟨[], .ok (p.mapTexts Text.toUtf8)⟩ := by
  obtain ⟨traits, traitsWritten, written⟩ := exists_of_bind_ok written
  obtain ⟨behaviors, behaviorsWritten, written⟩ := exists_of_bind_ok written
  obtain ⟨evolution, evolutionWritten, written⟩ := exists_of_bind_ok written
  obtain rfl := Except.ok.inj written
  have traitsRead := mapM_ok (forall₂_repaired storable.traits traitsWritten fun _ _ =>
    TraitEntry.toTrait_repaired)
  have knowledgeRead :
      ((p.knowledge.map DomainEntry.ofDomain).map DomainEntry.repaired).mapM
        DomainEntry.toDomain =
      ⟨[], .ok (p.knowledge.map (Domain.mapTexts Text.toUtf8))⟩ := by
    apply mapM_ok
    rw [List.map_map, List.forall₂_map_left_iff, List.forall₂_map_right_iff, List.forall₂_same]
    exact fun d member => DomainEntry.toDomain_repaired (storable.knowledge d member)
  have behaviorsRead := mapM_zipIdx_ok 0
    (forall₂_repaired storable.behaviors behaviorsWritten fun _ _ =>
      BehaviorEntry.toRule_repaired)
  have evolutionRead := mapM_zipIdx_ok 0
    (forall₂_repaired storable.evolution evolutionWritten fun _ _ =>
      EvolutionEntry.toRule_repaired)
  simp only [Document.toPersonality, Document.repaired, traitsRead, knowledgeRead,
    behaviorsRead, evolutionRead]
  rfl

/-- The output of a personality that can be stored is decoded to the personality with its
texts repaired, whatever blank indentation it has. -/
theorem decode_emit_of_storable {p : Personality} {indent output : Text}
    (storable : p.Storable)
    (blank : ∀ b ∈ indent, Json.isSpace b = true) (emitted : emit p indent = .ok output) :
    decode output = ⟨[], .ok (p.mapTexts Text.toUtf8)⟩ := by
  obtain ⟨document, documentWritten, emitted⟩ := exists_of_bind_ok emitted
  obtain ⟨json, jsonWritten, emitted⟩ := exists_of_bind_ok emitted
  obtain rfl := Except.ok.inj emitted
  have complete : Document.ofPersonality p = .ok document := by
    cases made : Document.ofPersonality p with
    | error e =>
      rw [made] at documentWritten
      cases documentWritten
    | ok d =>
      rw [made] at documentWritten
      exact congrArg Except.ok (Except.ok.inj documentWritten)
  obtain ⟨fits, reads⟩ := Document.decodes jsonWritten
  have written := Json.read?_write blank (fits.more (Json.depthLimit - 5))
  simp only [decode, written, Option.bind_some, reads]
  exact Document.toPersonality_repaired storable complete

/-- What can be printed can be stored, so its output is decoded in the same way. -/
theorem decode_emit {p : Personality} {indent output : Text} (printable : p.Printable)
    (blank : ∀ b ∈ indent, Json.isSpace b = true) (emitted : emit p indent = .ok output) :
    decode output = ⟨[], .ok (p.mapTexts Text.toUtf8)⟩ :=
  decode_emit_of_storable printable.storable blank emitted

end Persona.Structured
