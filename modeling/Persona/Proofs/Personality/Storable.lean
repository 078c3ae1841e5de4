import Persona.Proofs.Analysis.Sound
import Persona.Proofs.Personality.Spelling

/-!
# What can be stored

The structured target stores names as they are, so nothing is asked of them. Only the
parts that it stores as document text have to be printable, and its numbers and levels
have to be writable. What can be printed can be stored; and nothing is missing of what
can be stored, nor is any of its numbers infinite.
-/

namespace Persona

/-- A trait that can be stored. -/
structure Trait.Storable (t : Trait) : Prop where
  strength : t.strength.isFinite = true
  modifiers : ∀ m ∈ t.modifiers, Present Modifier.Printable m

/-- A domain that can be stored. -/
structure Domain.Storable (d : Domain) : Prop where
  levels : ∀ t ∈ d.topics, t.level ∈ Level.all
  connections : ∀ c ∈ d.connections, ∀ x ∈ c.numbers, x.isFinite = true

/-- A personality that can be stored. -/
structure Personality.Storable (p : Personality) : Prop where
  traits : ∀ t ∈ p.traits, t.Storable
  knowledge : ∀ d ∈ p.knowledge, d.Storable
  behaviors : ∀ r ∈ p.behaviors, r.Printable
  evolution : ∀ r ∈ p.evolution, r.Printable

/-- What can be printed can be stored. -/
theorem Personality.Printable.storable {p : Personality} (printable : p.Printable) :
    p.Storable where
  traits := fun t member => ⟨(printable.traits t member).strength,
    (printable.traits t member).modifiers⟩
  knowledge := by
    intro d member
    refine ⟨fun t inTopics => ((printable.knowledge d member).topics t inTopics).level, ?_⟩
    intro c inConnections x among
    have connection := (printable.knowledge d member).connections c inConnections
    rcases List.mem_cons.mp among with rfl | isRate
    · exact connection.strength
    · exact connection.rate x (Option.mem_toList.mp isRate)
  behaviors := printable.behaviors
  evolution := printable.evolution

/-- A part that is there with a condition is there. -/
theorem Present.isSome {α : Type} {condition : α → Prop} {part : Option α}
    (present : Present condition part) :
    part.isSome = true := by
  obtain ⟨value, rfl, -⟩ := present
  rfl

/-- A modifier that can be printed has its circumstance. -/
theorem Modifier.Printable.complete {m : Modifier} (printable : m.Printable) : m.Complete := by
  cases m with
  | «when» context => exact Present.isSome printable
  | «unless» context => exact Present.isSome printable
  | _ => trivial

/-- A behavior rule that can be printed has both parts. -/
theorem BehaviorRule.Printable.complete {r : BehaviorRule} (printable : r.Printable) :
    r.Complete :=
  ⟨printable.condition.isSome, printable.action.isSome⟩

/-- An effect that can be printed has all parts. -/
theorem Effect.Printable.complete {e : Effect} (printable : e.Printable) : e.Complete := by
  cases e with
  | adopt rule => exact BehaviorRule.Printable.complete printable
  | _ => trivial

/-- Nothing is missing of what can be stored. -/
theorem Personality.Storable.complete {p : Personality} (storable : p.Storable) :
    p.Complete where
  modifiers := by
    intro t member m inTrait
    obtain ⟨value, there, printable⟩ := (storable.traits t member).modifiers m inTrait
    exact ⟨value, there, printable.complete⟩
  behaviors := fun r member => (storable.behaviors r member).complete
  evolution := by
    intro r member
    obtain ⟨effect, there, printable⟩ := (storable.evolution r member).effect
    exact ⟨(storable.evolution r member).trigger.isSome, effect, there, printable.complete⟩

/-- The numbers of a part that is there are finite if the part sees to it. -/
theorem Present.finite {α : Type} {condition : α → Prop} {part : Option α}
    {numbers : α → List Binary64} (present : Present condition part)
    (finite : ∀ value, condition value → ∀ x ∈ numbers value, x.isFinite = true) :
    ∀ x ∈ part.toList.flatMap numbers, x.isFinite = true := by
  obtain ⟨value, rfl, holds⟩ := present
  simpa using finite value holds

/-- The numbers of a modifier that can be printed are finite. -/
theorem Modifier.Printable.finite (m : Modifier) (printable : m.Printable) :
    ∀ x ∈ m.numbers, x.isFinite = true := by
  cases m with
  | decay rate unit => exact List.forall_mem_singleton.mpr printable.1
  | amplifies target factor => exact List.forall_mem_singleton.mpr printable.2
  | transformsTo target factor count => exact List.forall_mem_singleton.mpr printable.2.1
  | _ => exact List.forall_mem_nil _

/-- The numbers of a condition that can be printed are finite. -/
theorem Condition.Printable.finite (c : Condition) (printable : c.Printable) :
    ∀ x ∈ c.numbers, x.isFinite = true := by
  cases c with
  | traitAbove trait threshold => exact List.forall_mem_singleton.mpr printable.2
  | _ => exact List.forall_mem_nil _

/-- The numbers of a behavior rule that can be printed are finite. -/
theorem BehaviorRule.Printable.finite {r : BehaviorRule} (printable : r.Printable) :
    ∀ x ∈ r.numbers, x.isFinite = true :=
  printable.condition.finite Condition.Printable.finite

/-- The numbers of a trigger that can be printed are finite. -/
theorem Trigger.Printable.finite (t : Trigger) (printable : t.Printable) :
    ∀ x ∈ t.numbers, x.isFinite = true := by
  cases t with
  | feedback score => exact List.forall_mem_singleton.mpr printable
  | _ => exact List.forall_mem_nil _

/-- The numbers of an effect that can be printed are finite. -/
theorem Effect.Printable.finite (e : Effect) (printable : e.Printable) :
    ∀ x ∈ e.numbers, x.isFinite = true := by
  cases e with
  | adjust trait delta => exact List.forall_mem_singleton.mpr printable.2
  | unlock domain => exact List.forall_mem_nil _
  | connect source target strength => exact List.forall_mem_singleton.mpr printable.2.2
  | adopt rule => exact BehaviorRule.Printable.finite printable

/-- The numbers of what can be stored are finite. -/
theorem Personality.Storable.finite {p : Personality} (storable : p.Storable) :
    ∀ x ∈ p.numbers, x.isFinite = true := by
  refine List.forall_mem_append.mpr ⟨?_,
    List.forall_mem_append.mpr ⟨?_, List.forall_mem_append.mpr ⟨?_, ?_⟩⟩⟩
  · rw [List.forall_mem_flatMap]
    intro t member
    refine List.forall_mem_cons.mpr ⟨(storable.traits t member).strength, ?_⟩
    rw [List.forall_mem_flatMap]
    exact fun m inTrait => ((storable.traits t member).modifiers m inTrait).finite
      Modifier.Printable.finite
  · rw [List.forall_mem_flatMap]
    intro c member
    obtain ⟨d, inKnowledge, connected⟩ := List.mem_flatMap.mp member
    exact (storable.knowledge d inKnowledge).connections c connected
  · rw [List.forall_mem_flatMap]
    exact fun r member => (storable.behaviors r member).finite
  · rw [List.forall_mem_flatMap]
    intro r member
    exact List.forall_mem_append.mpr
      ⟨(storable.evolution r member).trigger.finite Trigger.Printable.finite,
      (storable.evolution r member).effect.finite Effect.Printable.finite⟩

end Persona
