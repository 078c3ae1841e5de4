import Persona.Proofs.Request
import Persona.Proofs.Simplify.Trimming

/-!
# Simplification keeps what is valid

No kind of error is reported of a simplified personality that is not reported of the
personality itself: what simplification takes away can only take errors with it. So
what passes validation still does, and a document that can be compiled as it stands
can be compiled at every degree.
-/

namespace Persona

open Simplify (Degree)

variable {p q : Personality}

/-- What is reported of the rest of a complete personality is of kinds that are reported
of the whole. -/
theorem Personality.Trims.validate_kinds (trims : p.Trims q) (complete : p.Complete) :
    (∀ e ∈ q.validate.2, ∃ f ∈ p.validate.2, f.kind = e.kind) ∧
      KindsWithin q.validate.1.problems p.validate.1.problems := by
  obtain ⟨before, after, ran, ran', kinds⟩ := trims.kindsWithin complete
  rw [validate_eq complete ran, validate_eq (trims.complete complete) ran', trims.ownErrors]
  refine ⟨?_, kinds⟩
  intro e member
  rcases List.mem_append.mp member with own | found
  · exact ⟨e, List.mem_append_left _ own, rfl⟩
  · split at found
    case isTrue => cases found
    case isFalse invalid' =>
      obtain rfl := List.mem_singleton.mp found
      have invalid : before.isValid = false := by
        cases problems : after.problems with
        | nil => simp [Analysis.isValid, problems] at invalid'
        | cons x rest =>
          obtain ⟨y, there, -⟩ := kinds x (by simp [problems])
          exact List.isEmpty_eq_false_iff.mpr (List.ne_nil_of_mem there)
      exact ⟨.unsound before.problems, by simp [invalid], rfl⟩

/-- What is left of a valid personality is valid. -/
theorem Personality.Trims.valid (trims : p.Trims q) (passed : p.validate.2 = []) :
    q.validate.2 = [] := by
  have kinds := (trims.validate_kinds (validate_incomplete passed)).1
  rw [List.eq_nil_iff_forall_not_mem]
  intro e member
  obtain ⟨f, reported, -⟩ := kinds e member
  simp [passed] at reported

/-- The emitters that were registered under a name never fail. -/
def CompileOptions.Dependable (options : CompileOptions) (target : Text) : Prop :=
  ∀ entry ∈ options.emitters, entry.1 = target → ∀ p context, ∃ output,
    entry.2 p context = .ok output

/-- An emitter that was registered or is built in also writes what is left of a
personality that it has written. -/
theorem CompileOptions.emit_trimmed {options : CompileOptions}
    {target context output : Text} {emitter : Emitter}
    (dependable : options.Dependable target)
    (found : options.emitter? target = some emitter) (trims : p.Trims q)
    (passed : p.validate.2 = []) (emitted : emitter p context = .ok output) :
    ∃ output', emitter q context = .ok output' := by
  unfold emitter? at found
  split at found
  · rename_i registered looked
    obtain rfl := Option.some.inj found
    obtain ⟨before, after, split, -⟩ := List.lookup_eq_some_iff.mp looked
    have member : (target, registered) ∈ options.emitters := by
      rw [← List.mem_reverse, split]
      simp
    exact dependable _ member rfl q context
  · obtain ⟨builtIn, -, rfl⟩ := Option.map_eq_some_iff.mp found
    have ends := Target.emit_ends passed builtIn options.indent context
    have ends' := Target.emit_ends (trims.valid passed) builtIn options.indent context
    rw [emitted] at ends
    cases emitted' : builtIn.emit options.indent q context with
    | ok output' => exact ⟨output', rfl⟩
    | error e =>
      -- Only a connection could stand in the way, and the connections are the same.
      rw [emitted'] at ends'
      obtain ⟨structured, x, member, infinite, -⟩ := ends'
      have finite := ends structured x (trims.connections ▸ member)
      rw [finite] at infinite
      cases infinite

/-- What is valid and can be written is compiled. -/
theorem CompileOptions.compile_of_valid {options : CompileOptions}
    {target context output : Text} {emitter : Emitter}
    (found : options.emitter? target = some emitter) (passed : p.validate.2 = [])
    (emitted : emitter p context = .ok output) :
    (options.compile p target context).result = .ok ⟨target, output, p.validate.1.advice⟩ := by
  simp [compile, found, passed, emitted]

/-- A request whose document is read and compiled succeeds. -/
theorem Request.build_of_ok {request : Request} {options : RunOptions} {compiled : Compiled}
    (read : (Personality.read (request.readingOptions options) request.source).result = .ok p)
    (made : (options.compile.compile (request.simplified p).1 request.target
      request.context).result = .ok compiled) :
    (request.build options).2.failure = none := by
  simp [build, read, made, blank]

/-- What a request simplifies is trimmed. -/
theorem Request.trims_simplified (request : Request) (p : Personality) :
    p.Trims (request.simplified p).1 := by
  unfold simplified
  split
  · exact Personality.Trims.refl p
  · exact p.trims_simplify request.degree

/-- A request that succeeds without simplification succeeds at every degree. -/
theorem Request.succeeds_simplified {options : RunOptions} {request : Request}
    {degree : Degree} (dependable : options.compile.Dependable request.target)
    (succeeds : (Runner.run ⟨options, none⟩ { request with degree := .none }).2.2.failure =
      none) :
    (Runner.run ⟨options, none⟩ { request with degree := degree }).2.2.failure = none := by
  have asked : request.canceled = false := by
    cases canceled : request.canceled with
    | false => rfl
    | true => simp [Runner.run, canceled] at succeeds
  rw [Runner.run_uncached options (show { request with degree := .none }.canceled =
    false from asked)] at succeeds
  rw [Runner.run_uncached options (show { request with degree := degree }.canceled =
    false from asked)]
  rw [Request.make_response] at succeeds ⊢
  obtain ⟨p, compiled, read, made, -⟩ := Request.build_ok succeeds
  have same : ({ request with degree := .none } : Request).simplified p = (p, none) := by
    simp [Request.simplified]
  rw [same] at made
  obtain ⟨emitter, found, passed, emitted⟩ := CompileOptions.compile_ok made
  have trims := ({ request with degree := degree } : Request).trims_simplified p
  obtain ⟨output, emitted'⟩ := CompileOptions.emit_trimmed dependable found trims
    passed emitted
  exact Request.build_of_ok read (CompileOptions.compile_of_valid found (trims.valid passed)
    emitted')

/-- Simplification keeps what is valid. If nothing is reported of a complete personality,
then nothing is reported of the simplified one; and in any case every kind of error and
every kind of problem that is reported of the simplified personality is reported of the
personality itself. So a request that succeeds without simplification succeeds with it,
whatever the target, as long as an emitter that was registered for the target does not
fail of itself. -/
theorem Personality.validate_simplify {p : Personality} (complete : p.Complete)
    (degree : Degree) :
    (p.validate.2 = [] → (p.simplify degree).1.validate.2 = []) ∧
    (∀ e ∈ (p.simplify degree).1.validate.2, ∃ f ∈ p.validate.2, f.kind = e.kind) ∧
    (∀ x ∈ (p.simplify degree).1.validate.1.problems, ∃ y ∈ p.validate.1.problems,
      y.kind = x.kind) ∧
    ∀ (options : RunOptions) (request : Request), options.compile.Dependable request.target →
      (Runner.run ⟨options, none⟩ { request with degree := .none }).2.2.failure = none →
      (Runner.run ⟨options, none⟩ { request with degree := degree }).2.2.failure = none := by
  have trims := p.trims_simplify degree
  obtain ⟨errors, problems⟩ := trims.validate_kinds complete
  refine ⟨trims.valid, errors, problems, ?_⟩
  intro options request dependable succeeds
  exact Request.succeeds_simplified dependable succeeds

/-- A personality with a decay that does nothing, a rule on an unknown domain, and a
trigger with two effects behind a trigger that does not agree with itself. Simplification
leaves the last fault. -/
def Personality.crooked : Personality where
  name := "crooked"
  traits := [
    { name := "calm", strength := .ofRatio false 1 4
      modifiers := [some (.decay (.ofRatio true 1 10) .day),
        some (.decay (.ofRatio false 1 10) .day)] }]
  knowledge := []
  behaviors := []
  evolution := [⟨some (.interactions 5), some (.adjust "calm" (.ofRatio false 1 4))⟩,
    ⟨some (.feedback .nan), some (.adjust "calm" (.ofRatio false 1 2))⟩,
    ⟨some (.learns "tea"), some (.unlock "garden")⟩,
    ⟨some (.interactions 5), some (.adjust "calm" (.ofRatio false 1 2))⟩]

/-- The two faults that go with what is dropped are gone, and the one that is left
was there before.
-/
theorem Personality.validate_simplify_crooked :
    crooked.Complete ∧
    crooked.validate.1.problems.map Problem.kind =
      ["NonDeterministicEvolution", "InvalidDomainReference", "ModifierConflict"] ∧
    (crooked.simplify .basic).1.validate.1.problems.map Problem.kind =
      ["NonDeterministicEvolution"] ∧
    (∀ x ∈ (crooked.simplify .basic).1.validate.1.problems,
      ∃ y ∈ crooked.validate.1.problems, y.kind = x.kind) := by
  have complete : crooked.Complete :=
    (Validation.missing_eq_nil_iff crooked).mp (by decide +kernel)
  exact ⟨complete, by
    decide +kernel, by decide +kernel, (validate_simplify complete .basic).2.2.1⟩

end Persona
