import Persona.Proofs.Compile
import Persona.Proofs.Grammar.Texts
import Persona.Proofs.Structured
import Persona.Proofs.Structured.Entries

/-!
# Decoding is stable on its image

Whatever a text is decoded to can be stored: its fragments were read and can therefore be
printed, its levels were looked up, and its numbers were read from JSON. Its texts are
valid UTF-8. So it can be written again, with any blank indentation, and what was written
is decoded to the very same personality, although the text it came from may spell the
fragments otherwise.
-/

namespace Persona

namespace Logged

variable {ε δ α β : Type}

/-- If the work succeeds, the condition holds of its outcome. -/
def Ensures (work : Logged ε α) (post : α → Prop) :
    Prop := ∀ value, work.result = .ok value → post value

/-- Work that does nothing. -/
theorem Ensures.pure {post : α → Prop} {value : α} (holds : post value) :
    Ensures (Pure.pure value : Logged ε α) post := by
  intro result done
  obtain rfl := Except.ok.inj done
  exact holds

/-- One piece of work after another. -/
theorem Ensures.bind {first : Logged ε α} {next : α → Logged ε β} {middle : α → Prop}
    {post : β → Prop} (ensures : first.Ensures middle)
    (continues : ∀ value, middle value → (next value).Ensures post) :
    Ensures (first >>= next) post := by
  intro result done
  change (Logged.bind first next).result = .ok result at done
  unfold Logged.bind at done
  split at done
  · cases done
  · rename_i value succeeded
    exact continues value (ensures value succeeded) result done

/-- Work on every member of a list. -/
theorem Ensures.mapM {f : α → Logged ε β} {xs : List α} {post : β → Prop}
    (each : ∀ x ∈ xs, (f x).Ensures post) : Ensures (xs.mapM f) fun ys =>
    ∀ y ∈ ys, post y := by
  induction xs with
  | nil => exact Ensures.pure (List.forall_mem_nil _)
  | cons x xs inductionHypothesis =>
    obtain ⟨first, others⟩ := List.forall_mem_cons.mp each
    rw [List.mapM_cons]
    refine Ensures.bind first fun y holds =>
      Ensures.bind (inductionHypothesis others) fun ys allHold => ?_
    exact Ensures.pure (List.forall_mem_cons.mpr ⟨holds, allHold⟩)

/-- The same work with its failure seen differently. -/
theorem Ensures.mapError {work : Logged ε α} {post : α → Prop} (ensures : work.Ensures post)
    (f : ε → δ) :
    Ensures (work.mapError f) post := by
  intro value done
  apply ensures
  unfold Logged.mapError at done
  cases outcome : work.result with
  | error e => simp [outcome, Except.mapError] at done
  | ok result => simpa [outcome, Except.mapError] using done

end Logged

namespace Structured

open Logged (Ensures)

/-- A stored part that is read from a valid text satisfies what its parser ensures, and
its texts are valid. -/
theorem stored_ensures {α : Type} {what text : Text} {p : Grammar.Parser α}
    {phrase : List Spelling → α → Prop}
    {post : α → Prop} {texts : α → List Text} (derives : Grammar.Derives p phrase)
    (ensures : Grammar.Ensures p post) (listed : ∀ {symbols value}, phrase symbols value →
      texts value ⊆ Grammar.symbolTexts symbols)
    (valid : text.isUtf8 = true) (place : Text) :
    Ensures (stored place (Fragment.read what p) text) fun value => post value ∧
    ∀ t ∈ texts value, t.isUtf8 = true := by
  apply Ensures.mapError
  intro value read
  exact Fragment.read_sound derives ensures listed valid read

/-- The trait of a valid entry can be stored, and its texts are valid. -/
theorem TraitEntry.toTrait_ensures {t : TraitEntry} (valid : t.Valid) :
    Ensures t.toTrait fun trait => trait.Storable ∧ ∀ text ∈ trait.texts,
      text.isUtf8 = true := by
  refine Ensures.bind (Ensures.mapM fun text member => stored_ensures Grammar.modifier_derives
    Grammar.modifier_ensures Grammar.ModifierPhrase.texts_subset
      (valid.modifiers.items text member) _) ?_
  intro modifiers sound
  apply Ensures.pure
  constructor
  · refine ⟨valid.strength, ?_⟩
    rintro _ member
    obtain ⟨m, inTrait, rfl⟩ := List.mem_map.mp member
    exact ⟨m, rfl, (sound m inTrait).1⟩
  · refine List.forall_mem_cons.mpr ⟨valid.name, ?_⟩
    rw [List.forall_mem_flatMap]
    rintro _ member
    obtain ⟨m, inTrait, rfl⟩ := List.mem_map.mp member
    simpa using (sound m inTrait).2

/-- The topic of a valid entry has a level of the four and a valid name. -/
theorem TopicEntry.toTopic_ensures (domain : Text) {t : TopicEntry} (valid : t.Valid) :
    Ensures (t.toTopic domain) fun topic => topic.level ∈ Level.all ∧
    topic.name.isUtf8 = true := by
  unfold TopicEntry.toTopic
  split
  · rename_i level named
    exact Ensures.pure ⟨List.mem_of_find?_eq_some named, valid.name⟩
  · rintro value ⟨⟩

/-- The domain of a valid entry can be stored, and its texts are valid. -/
theorem DomainEntry.toDomain_ensures {d : DomainEntry} (valid : d.Valid) :
    Ensures d.toDomain fun domain => domain.Storable ∧ ∀ text ∈ domain.texts,
      text.isUtf8 = true := by
  refine Ensures.bind (Ensures.mapM fun t member =>
    TopicEntry.toTopic_ensures _ (valid.topics.items t member)) ?_
  intro topics sound
  apply Ensures.pure
  constructor
  · refine ⟨fun t member => (sound t member).1, ?_⟩
    rintro _ member
    obtain ⟨c, listed, rfl⟩ := List.mem_map.mp member
    have entry := valid.connections.items c listed
    exact List.forall_mem_cons.mpr ⟨entry.strength, by simpa using entry.rate⟩
  · refine List.forall_mem_cons.mpr ⟨valid.name, List.forall_mem_append.mpr ⟨?_, ?_⟩⟩
    · rw [List.forall_mem_flatMap]
      exact fun t member => List.forall_mem_singleton.mpr (sound t member).2
    · rw [List.forall_mem_flatMap]
      rintro _ member
      obtain ⟨c, listed, rfl⟩ := List.mem_map.mp member
      have entry := valid.connections.items c listed
      exact List.forall_mem_cons.mpr ⟨entry.source, List.forall_mem_singleton.mpr entry.target⟩

/-- The behavior of a valid entry can be printed, and its texts are valid. -/
theorem BehaviorEntry.toRule_ensures (position : Nat) {b : BehaviorEntry} (valid : b.Valid) :
    Ensures (b.toRule position) fun r => r.Printable ∧ ∀ text ∈ r.texts,
      text.isUtf8 = true := by
  refine Ensures.bind (stored_ensures Grammar.condition_derives Grammar.condition_ensures
    Grammar.ConditionPhrase.texts_subset valid.condition _) fun condition conditionSound => ?_
  refine Ensures.bind (stored_ensures Grammar.action_derives Grammar.action_ensures
    Grammar.ActionPhrase.texts_subset valid.action _) fun action actionSound => ?_
  apply Ensures.pure
  constructor
  · exact ⟨⟨condition, rfl, conditionSound.1⟩, ⟨action, rfl, actionSound.1⟩⟩
  · rw [BehaviorRule.texts, List.forall_mem_append]
    exact ⟨by simpa using conditionSound.2, by simpa using actionSound.2⟩

/-- The evolution rule of a valid entry can be printed, and its texts are valid. -/
theorem EvolutionEntry.toRule_ensures (position : Nat) {e : EvolutionEntry} (valid : e.Valid) :
    Ensures (e.toRule position) fun r => r.Printable ∧ ∀ text ∈ r.texts,
      text.isUtf8 = true := by
  refine Ensures.bind (stored_ensures Grammar.trigger_derives Grammar.trigger_ensures
    Grammar.TriggerPhrase.texts_subset valid.trigger _) fun trigger triggerSound => ?_
  refine Ensures.bind (stored_ensures Grammar.effect_derives Grammar.effect_ensures
    Grammar.EffectPhrase.texts_subset valid.effect _) fun effect effectSound => ?_
  apply Ensures.pure
  constructor
  · exact ⟨⟨trigger, rfl, triggerSound.1⟩, ⟨effect, rfl, effectSound.1⟩⟩
  · rw [EvolutionRule.texts, List.forall_mem_append]
    exact ⟨by simpa using triggerSound.2, by simpa using effectSound.2⟩

/-- The personality of a valid document can be stored, and its texts are valid. -/
theorem Document.toPersonality_ensures {d : Document} (valid : d.Valid) :
    Ensures d.toPersonality fun p => p.Storable ∧ ∀ text ∈ p.texts, text.isUtf8 = true := by
  have behave : ∀ entry ∈ d.behaviors.items.zipIdx, Ensures (entry.1.toRule entry.2)
      fun r => r.Printable ∧ ∀ text ∈ r.texts, text.isUtf8 = true := fun entry member =>
    BehaviorEntry.toRule_ensures entry.2
      (valid.behaviors.items _ (List.fst_mem_of_mem_zipIdx member))
  have evolve : ∀ entry ∈ d.evolution.items.zipIdx, Ensures (entry.1.toRule entry.2)
      fun r => r.Printable ∧ ∀ text ∈ r.texts, text.isUtf8 = true := fun entry member =>
    EvolutionEntry.toRule_ensures entry.2
      (valid.evolution.items _ (List.fst_mem_of_mem_zipIdx member))
  refine Ensures.bind (Ensures.mapM fun t member =>
    TraitEntry.toTrait_ensures (valid.traits.items t member)) ?_
  intro traits traitsSound
  refine Ensures.bind (Ensures.mapM fun k member =>
    DomainEntry.toDomain_ensures (valid.knowledge.items k member)) ?_
  intro knowledge knowledgeSound
  refine Ensures.bind (Ensures.mapM behave) fun behaviors behaviorsSound => ?_
  refine Ensures.bind (Ensures.mapM evolve) fun evolution evolutionSound => ?_
  apply Ensures.pure
  constructor
  · exact ⟨fun t member => (traitsSound t member).1, fun k member =>
      (knowledgeSound k member).1,
      fun r member => (behaviorsSound r member).1, fun r member => (evolutionSound r member).1⟩
  · simp only [Personality.texts, List.forall_mem_cons, List.forall_mem_append,
      List.forall_mem_flatMap]
    exact ⟨valid.name, fun t member => (traitsSound t member).2, fun k member =>
      (knowledgeSound k member).2,
      fun r member => (behaviorsSound r member).2, fun r member => (evolutionSound r member).2⟩

/-- Whatever a text is decoded to can be stored, and its texts are valid. -/
theorem decode_ensures (text : Text) :
    Ensures (decode text) fun p => p.Storable ∧ ∀ t ∈ p.texts, t.isUtf8 = true := by
  unfold decode
  split
  · rename_i document held
    exact Document.toPersonality_ensures (document_valid held)
  · rintro value ⟨⟩

/-- What can be stored can be written, with any indentation. -/
theorem emit_of_storable {p : Personality} (storable : p.Storable) (indent : Text) :
    ∃ output, emit p indent = .ok output := by
  have ends := emit_ends storable.complete (fun t member =>
    (storable.traits t member).strength) indent
  cases emitted : emit p indent with
  | ok output => exact ⟨output, rfl⟩
  | error e =>
    rw [emitted] at ends
    obtain ⟨x, among, infinite, -⟩ := ends
    obtain ⟨c, connected, inConnection⟩ := List.mem_flatMap.mp among
    obtain ⟨d, known, inDomain⟩ := List.mem_flatMap.mp connected
    have finite := (storable.knowledge d known).connections c inDomain x inConnection
    rw [infinite] at finite
    cases finite

/-- Decoding is stable on its image. Whatever personality a text is decoded to, valid or
not and printable or not, it can be written with any blank indentation; and what was
written is decoded to the same personality, with nothing to report on the way. -/
theorem decode_stable {text indent : Text} {p : Personality}
    (decoded : (decode text).result = .ok p) (blank : ∀ b ∈ indent, Json.isSpace b = true) :
    ∃ output, emit p indent = .ok output ∧ decode output = ⟨[], .ok p⟩ := by
  obtain ⟨storable, valid⟩ := decode_ensures text p decoded
  obtain ⟨output, emitted⟩ := emit_of_storable storable indent
  have repaired : p.mapTexts Text.toUtf8 = p := by
    rw [Personality.mapTexts_eq_self_iff]
    exact fun t member => (Text.isUtf8_iff t).mp (valid t member)
  refine ⟨output, emitted, ?_⟩
  rw [decode_emit_of_storable storable blank emitted, repaired]

/-- A document that no reader of documents would take: its name has quotes and a line feed
in it, a trait is laid over another one, a rule speaks of a trigger that nobody knows, and
its fragments are spelled in other ways than they are printed. -/
def crabbed : Text :=
  ["\x7b\"name\":\"\\\"I\\\"\\n\",", "\"traits\":[\x7b\"name\":\"calm\",",
    "\"modifiers\":[", "\"when( emotion: \\\"late\\\" )\"]\x7d,\x7b\x7d],",
    "\"TRAITS\":[\x7b\"strength\":-2.50\x7d],", "\"behaviors\":[\x7b\"condition\":",
    "\"unheard(\\\"of\\\")\",", "\"action\":\"style(if, \\\"terse\\\")\"\x7d],",
    "\"evolution\":[\x7b\"trigger\":", "\"weather((3 - 1) / 4)\",",
    "\"effect\":\"calm -= 1 - 1\"\x7d]\x7d"].flatMap Text.ofString

/-- What the document stands for. -/
def deciphered : Personality where
  name := "\"I\"\n"
  traits := [⟨"calm", .ofRatio true 5 2, [some (.when (some (.mood "late")))]⟩]
  knowledge := []
  behaviors := [⟨some (.context "unheard"), some (.setStyle "if" "terse")⟩]
  evolution :=
    [⟨some (.feedback (.ofRatio false 1 2)), some (.adjust "calm" (.ofRatio true 0 1))⟩]

/-- What the document stands for is written with any indentation of blanks, and
decodes to the same.
-/
theorem decode_stable_crabbed : (decode crabbed).result = .ok deciphered ∧
    ∃ output, emit deciphered [32, 9] = .ok output ∧ decode output = ⟨[], .ok deciphered⟩ := by
  have decoded : (decode crabbed).result = .ok deciphered := by decide +kernel
  exact ⟨decoded, decode_stable decoded (by decide +kernel)⟩

end Structured

end Persona
