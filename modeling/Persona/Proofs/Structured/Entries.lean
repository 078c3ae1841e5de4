import Persona.Structured
import Persona.Proofs.Json.Reading

/-!
# What the entries of a document hold

A document is read field by field over what was there before, and a list is laid over an
earlier one. Starting from nothing, all of its texts are then valid UTF-8 and all of its
numbers finite. The items that a shorter list hides have to be watched as well, because a
longer one that follows brings them back.
-/

namespace Persona.Structured

/-- The condition holds of all items, the hidden ones included. -/
def Layered.All {α : Type} (condition : α → Prop) (l : Layered α) : Prop :=
  ∀ x ∈ l.items ++ l.hidden, condition x

/-- The condition holds of each item that is not hidden. -/
theorem Layered.All.items {α : Type} {condition : α → Prop} {l : Layered α}
    (all : l.All condition) :
    ∀ x ∈ l.items, condition x :=
  fun x member => all x (List.mem_append_left l.hidden member)

/-- A condition holds of all items where there are none. -/
theorem Layered.all_nil {α : Type} (condition : α → Prop) : ({} : Layered α).All condition :=
  List.forall_mem_nil _

/-- A trait entry with valid texts and a finite number. -/
structure TraitEntry.Valid (t : TraitEntry) : Prop where
  name : t.name.isUtf8 = true
  strength : t.strength.isFinite = true
  modifiers : t.modifiers.All fun text => text.isUtf8 = true

/-- A topic entry with a valid name; its level is a word or it is refused later. -/
structure TopicEntry.Valid (t : TopicEntry) : Prop where
  name : t.name.isUtf8 = true

/-- A connection entry with valid texts and finite numbers. -/
structure ConnectionEntry.Valid (c : ConnectionEntry) : Prop where
  source : c.source.isUtf8 = true
  target : c.target.isUtf8 = true
  strength : c.strength.isFinite = true
  rate : ∀ x ∈ c.rate, x.isFinite = true

/-- A domain entry with valid texts and finite numbers. -/
structure DomainEntry.Valid (d : DomainEntry) : Prop where
  name : d.name.isUtf8 = true
  topics : d.topics.All TopicEntry.Valid
  connections : d.connections.All ConnectionEntry.Valid

/-- A behavior entry with valid texts. -/
structure BehaviorEntry.Valid (b : BehaviorEntry) : Prop where
  condition : b.condition.isUtf8 = true
  action : b.action.isUtf8 = true

/-- An evolution entry with valid texts. -/
structure EvolutionEntry.Valid (e : EvolutionEntry) : Prop where
  trigger : e.trigger.isUtf8 = true
  effect : e.effect.isUtf8 = true

/-- A document with valid texts and finite numbers. -/
structure Document.Valid (d : Document) : Prop where
  name : d.name.isUtf8 = true
  traits : d.traits.All TraitEntry.Valid
  knowledge : d.knowledge.All DomainEntry.Valid
  behaviors : d.behaviors.All BehaviorEntry.Valid
  evolution : d.evolution.All EvolutionEntry.Valid

/-- Reading a valid value over something with the condition gives something with
the condition. -/
def Keeps {α : Type} (condition : α → Prop) (read : α → Json → Option α) : Prop :=
  ∀ old json new, condition old → json.Valid → read old json = some new → condition new

/-- A text stays valid. -/
theorem keeps_text : Keeps (fun text => text.isUtf8 = true) readText := by
  intro old json new before valid read
  cases valid with
  | null =>
    cases read
    exact before
  | string decodable =>
    cases read
    exact decodable
  | _ => cases read

/-- A number stays finite. -/
theorem keeps_number : Keeps (fun x => x.isFinite = true) readNumber := by
  intro old json new before valid read
  cases valid with
  | null =>
    cases read
    exact before
  | number finite => exact finite new read
  | _ => cases read

/-- A number that may be absent is finite, whatever was there. -/
theorem keeps_optional : Keeps (fun rate : Option Binary64 => ∀ x ∈ rate, x.isFinite = true)
    fun _ => readOptional := by
  intro old json new before valid read
  cases valid with
  | null =>
    cases read
    rintro x ⟨⟩
  | number finite =>
    obtain ⟨y, meant, rfl⟩ := Option.map_eq_some_iff.mp read
    rintro x ⟨rfl⟩
    exact finite y meant
  | _ => cases read

section Combined

variable {α β : Type} {condition : α → Prop} {part : β → Prop}

/-- Items laid over earlier ones keep the condition, and so do those they hide. -/
theorem readItems_all {blank : α} {read : α → Json → Option α} (keeps : Keeps condition read)
    (start : condition blank) {old : List α} {items : List Json} {new : Layered α}
    (before : ∀ x ∈ old, condition x) (valid : ∀ item ∈ items, item.Valid)
    (laid : readItems blank read old items = some new) : new.All condition := by
  induction items generalizing old new with
  | nil =>
    cases laid
    exact before
  | cons item items inductionHypothesis =>
    obtain ⟨itemValid, othersValid⟩ := List.forall_mem_cons.mp valid
    obtain ⟨first, firstRead, laid⟩ := Option.bind_eq_some_iff.mp laid
    obtain ⟨others, othersRead, laid⟩ := Option.bind_eq_some_iff.mp laid
    cases laid
    have beneath : condition (old.head?.getD blank) := by
      cases old with
      | nil => exact start
      | cons x old => exact before x List.mem_cons_self
    have left : ∀ x ∈ old.tail, condition x :=
      fun x member => before x (List.mem_of_mem_tail member)
    exact List.forall_mem_cons.mpr
      ⟨keeps _ item first beneath itemValid firstRead,
        inductionHypothesis left othersValid othersRead⟩

/-- A list keeps the condition of its items. -/
theorem Keeps.list {blank : α} {read : α → Json → Option α} (keeps : Keeps condition read)
    (start : condition blank) : Keeps (Layered.All condition) (readList blank read) := by
  intro old json new before valid read
  cases valid with
  | null =>
    cases read
    exact Layered.all_nil condition
  | @list items all =>
    cases items with
    | nil =>
      cases read
      exact Layered.all_nil condition
    | cons item items => exact readItems_all keeps start before all read
  | _ => cases read

/-- Fields read one after the other keep a condition that each of them keeps. -/
theorem readFields_keeps {field : α → Text → Json → Option α}
    (keeps : ∀ name, Keeps condition fun old => field old name) {old new : α}
    {fields : List (Text × Json)}
    (before : condition old) (valid : ∀ entry ∈ fields, entry.2.Valid)
    (read : readFields field old fields = some new) : condition new := by
  induction fields generalizing old with
  | nil =>
    cases read
    exact before
  | cons entry fields inductionHypothesis =>
    obtain ⟨name, value⟩ := entry
    obtain ⟨valueValid, othersValid⟩ := List.forall_mem_cons.mp valid
    obtain ⟨next, first, others⟩ := Option.bind_eq_some_iff.mp read
    exact inductionHypothesis (keeps (foldedName name) old value next before valueValid
      first) othersValid others

/-- An object keeps a condition that each of its fields keeps. -/
theorem keeps_object {field : α → Text → Json → Option α}
    (keeps : ∀ name, Keeps condition fun old => field old name) :
    Keeps condition (readObject field) := by
  intro old json new before valid read
  cases valid with
  | null =>
    cases read
    exact before
  | object all => exact readFields_keeps keeps before all read
  | _ => cases read

/-- A field of its own is read over the part it had, and stored. -/
theorem Keeps.field {read : β → Json → Option β} {get : α → β} {store : α → β → α}
    (keeps : Keeps part read) (has : ∀ old, condition old → part (get old))
    (stores : ∀ old x, condition old → part x → condition (store old x)) :
    Keeps condition fun old json => (read (get old) json).map (store old) := by
  intro old json new before valid stored
  obtain ⟨x, found, rfl⟩ := Option.map_eq_some_iff.mp stored
  exact stores old x before (keeps (get old) json x (has old before) valid found)

/-- A field is read in the one way or in the other. -/
theorem Keeps.ite {chosen : Prop} [Decidable chosen] {read other : α → Json → Option α}
    (first : Keeps condition read) (second : Keeps condition other) :
    Keeps condition fun old json => if chosen then read old json else other old json := by
  intro old json new before valid found
  dsimp only at found
  split at found
  · exact first old json new before valid found
  · exact second old json new before valid found

/-- A field that is not known is ignored. -/
theorem keeps_unknown : Keeps condition fun old _ => some old := by
  intro old json new before valid found
  cases found
  exact before

end Combined

/-- A trait entry stays valid. -/
theorem readTrait_keeps : Keeps TraitEntry.Valid readTrait := by
  apply keeps_object
  intro _
  apply Keeps.ite
  · exact keeps_text.field (fun _ entry => entry.name) fun _ _ entry name =>
      { entry with name }
  apply Keeps.ite
  · exact keeps_number.field (fun _ entry => entry.strength) fun _ _ entry strength =>
      { entry with strength }
  apply Keeps.ite
  · exact (keeps_text.list rfl).field (fun _ entry => entry.modifiers)
      fun _ _ entry modifiers => { entry with modifiers }
  exact keeps_unknown

/-- A topic entry stays valid, whatever becomes of its level. -/
theorem readTopic_keeps : Keeps TopicEntry.Valid readTopic := by
  have anything : Keeps (fun _ : Text => True) readText := fun _ _ _ _ _ _ => trivial
  apply keeps_object
  intro _
  apply Keeps.ite
  · exact keeps_text.field (fun _ entry => entry.name) fun _ _ _ name => ⟨name⟩
  apply Keeps.ite
  · exact anything.field (fun _ _ => trivial) fun _ _ entry _ => ⟨entry.name⟩
  exact keeps_unknown

/-- A connection entry stays valid. -/
theorem readConnection_keeps : Keeps ConnectionEntry.Valid readConnection := by
  apply keeps_object
  intro _
  apply Keeps.ite
  · exact keeps_text.field (fun _ entry => entry.source) fun _ _ entry source =>
      { entry with source }
  apply Keeps.ite
  · exact keeps_text.field (fun _ entry => entry.target) fun _ _ entry target =>
      { entry with target }
  apply Keeps.ite
  · exact keeps_number.field (fun _ entry => entry.strength) fun _ _ entry strength =>
      { entry with strength }
  apply Keeps.ite
  · exact keeps_optional.field (fun _ entry => entry.rate) fun _ _ entry rate =>
      { entry with rate }
  exact keeps_unknown

/-- A domain entry stays valid. -/
theorem readDomain_keeps : Keeps DomainEntry.Valid readDomain := by
  apply keeps_object
  intro _
  apply Keeps.ite
  · exact keeps_text.field (fun _ entry => entry.name) fun _ _ entry name =>
      { entry with name }
  apply Keeps.ite
  · exact (readTopic_keeps.list ⟨rfl⟩).field (fun _ entry => entry.topics)
      fun _ _ entry topics => { entry with topics }
  apply Keeps.ite
  · exact (readConnection_keeps.list ⟨rfl, rfl, rfl, by rintro x ⟨⟩⟩).field (fun _ entry =>
      entry.connections)
      fun _ _ entry connections => { entry with connections }
  exact keeps_unknown

/-- A behavior entry stays valid. -/
theorem readBehavior_keeps : Keeps BehaviorEntry.Valid readBehavior := by
  apply keeps_object
  intro _
  apply Keeps.ite
  · exact keeps_text.field (fun _ entry => entry.condition) fun _ _ entry condition =>
      { entry with condition }
  apply Keeps.ite
  · exact keeps_text.field (fun _ entry => entry.action) fun _ _ entry action =>
      { entry with action }
  exact keeps_unknown

/-- An evolution entry stays valid. -/
theorem readEvolution_keeps : Keeps EvolutionEntry.Valid readEvolution := by
  apply keeps_object
  intro _
  apply Keeps.ite
  · exact keeps_text.field (fun _ entry => entry.trigger) fun _ _ entry trigger =>
      { entry with trigger }
  apply Keeps.ite
  · exact keeps_text.field (fun _ entry => entry.effect) fun _ _ entry effect =>
      { entry with effect }
  exact keeps_unknown

/-- A document stays valid. -/
theorem readDocument_keeps : Keeps Document.Valid readDocument := by
  apply keeps_object
  intro _
  apply Keeps.ite
  · exact keeps_text.field (fun _ entry => entry.name) fun _ _ entry name =>
      { entry with name }
  apply Keeps.ite
  · exact (readTrait_keeps.list ⟨rfl, rfl, Layered.all_nil _⟩).field (fun _ entry =>
      entry.traits)
      fun _ _ entry traits => { entry with traits }
  apply Keeps.ite
  · exact (readDomain_keeps.list ⟨rfl, Layered.all_nil _, Layered.all_nil _⟩).field
      (fun _ entry => entry.knowledge)
      fun _ _ entry knowledge => { entry with knowledge }
  apply Keeps.ite
  · exact (readBehavior_keeps.list ⟨rfl, rfl⟩).field (fun _ entry => entry.behaviors)
      fun _ _ entry behaviors => { entry with behaviors }
  apply Keeps.ite
  · exact (readEvolution_keeps.list ⟨rfl, rfl⟩).field (fun _ entry => entry.evolution)
      fun _ _ entry evolution => { entry with evolution }
  exact keeps_unknown

/-- Whatever document a text holds is valid. -/
theorem document_valid {text : Text} {d : Document}
    (read : (Json.read? text).bind (readDocument {}) = some d) : d.Valid := by
  obtain ⟨json, held, document⟩ := Option.bind_eq_some_iff.mp read
  have blank : ({} : Document).Valid :=
    ⟨rfl, Layered.all_nil _, Layered.all_nil _, Layered.all_nil _, Layered.all_nil _⟩
  exact readDocument_keeps {} json d blank (Json.read?_valid held) document

end Persona.Structured
