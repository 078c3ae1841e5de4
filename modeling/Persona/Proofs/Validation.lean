import Persona.Proofs.Analysis.Checks
import Persona.Validation

/-!
# Validation decides soundness

A personality whose numbers are finite passes validation exactly when it is sound.
Validation stops at missing parts; otherwise it adds its own three conditions to
what the nine checks find, and the conditions together are those of soundness.
-/

namespace Persona

namespace Validation

/-- No modifier is named exactly when it is there with its circumstance. -/
theorem missingInModifier_eq_nil_iff (place : Text) (m : Option Modifier) :
    missingInModifier place m = [] ↔ ∃ value, m = some value ∧ value.Complete := by
  cases m with
  | none => simp [missingInModifier]
  | some value =>
    cases value with
    | «when» context => cases context <;> simp [missingInModifier, Modifier.Complete]
    | «unless» context => cases context <;> simp [missingInModifier, Modifier.Complete]
    | _ => simp [missingInModifier, Modifier.Complete]

/-- No part of a behavior is named exactly when it has both. -/
theorem missingInBehavior_eq_nil_iff (place : Text) (r : BehaviorRule) :
    missingInBehavior place r = [] ↔ r.Complete := by
  obtain ⟨condition, action⟩ := r
  cases condition <;> cases action <;> simp [missingInBehavior, BehaviorRule.Complete]

/-- No part of an evolution rule is named exactly when it has all. -/
theorem missingInEvolution_eq_nil_iff (place : Text) (r : EvolutionRule) :
    missingInEvolution place r = [] ↔
      r.trigger.isSome = true ∧ ∃ value, r.effect = some value ∧ value.Complete := by
  rw [missingInEvolution, List.append_eq_nil_iff]
  refine and_congr ?_ ?_
  · cases r.trigger <;> simp
  · cases r.effect with
    | none => simp
    | some effect =>
      cases effect with
      | adopt rule => simp [missingInBehavior_eq_nil_iff, Effect.Complete]
      | _ => simp [Effect.Complete]

/-- Nothing is named for any entry, whatever its position. -/
theorem flatten_mapIdx_eq_nil_iff {α : Type} {f : Nat → α → List Text}
    {condition : α → Prop} (xs : List α)
    (each : ∀ i x, f i x = [] ↔ condition x) : (xs.mapIdx f).flatten = [] ↔
    ∀ x ∈ xs, condition x := by
  simp only [List.flatten_eq_nil_iff, List.mem_mapIdx]
  constructor
  · intro all x member
    obtain ⟨i, bound, rfl⟩ := List.mem_iff_getElem.mp member
    exact (each i _).mp (all _ ⟨i, bound, rfl⟩)
  · rintro all _ ⟨i, bound, rfl⟩
    exact (each i _).mpr (all _ (List.getElem_mem bound))

/-- No place is named exactly when nothing is missing. -/
theorem missing_eq_nil_iff (p : Personality) : missing p = [] ↔ p.Complete := by
  rw [missing, List.append_eq_nil_iff, List.append_eq_nil_iff, List.flatMap_eq_nil_iff,
    flatten_mapIdx_eq_nil_iff p.behaviors fun _ r => missingInBehavior_eq_nil_iff _ r,
    flatten_mapIdx_eq_nil_iff p.evolution fun _ r => missingInEvolution_eq_nil_iff _ r]
  have traits : (∀ t ∈ p.traits, missingInTrait t = []) ↔
      ∀ t ∈ p.traits, ∀ m ∈ t.modifiers, ∃ value, m = some value ∧ value.Complete :=
    forall₂_congr fun t _ => flatten_mapIdx_eq_nil_iff t.modifiers fun _ m =>
      missingInModifier_eq_nil_iff _ m
  rw [traits, and_assoc]
  exact ⟨fun ⟨modifiers, behaviors, evolution⟩ => ⟨modifiers, behaviors, evolution⟩,
    fun complete => ⟨complete.modifiers, complete.behaviors, complete.evolution⟩⟩

/-- Validation has nothing of its own to report exactly when there is a name, strengths
are in bounds and domains are distinct. -/
theorem ownErrors_eq_nil_iff (p : Personality) : ownErrors p = [] ↔
    p.name ≠ [] ∧ (∀ t ∈ p.traits, t.strength.InUnit) ∧
    (p.knowledge.map Domain.name).Nodup := by
  have strengths : ((p.traits.filter fun t => !isStrength t.strength).map fun t =>
      CompileError.invalidStrength t.name t.strength) = [] ↔
        ∀ t ∈ p.traits, t.strength.InUnit := by
    simp [isStrength, Binary64.InUnit]
  have domains : (repetitions [] (p.knowledge.map Domain.name)).map
      CompileError.duplicateDomain = [] ↔
      (p.knowledge.map Domain.name).Nodup := by
    rw [List.map_eq_nil_iff, repetitions_eq_nil_iff [] _ List.nodup_nil]
    simp
  rw [ownErrors, List.append_eq_nil_iff, List.append_eq_nil_iff, strengths, domains, and_assoc]
  refine and_congr_left fun _ => ?_
  cases p.name <;> simp

end Validation

/-- The analysis of a personality whose rules can be looked at finds what the
checks find. -/
theorem Analysis.run_eq {p : Personality} {unreachable : List Problem}
    (looked : Check.unreachable p = .ok unreachable) :
    Analysis.run p =
      .ok ⟨Check.circular p ++ (Check.traitConflicts p ++
      (Check.determinism p ++ (unreachable ++
      (Check.domainReferences p ++ (Check.modifierConflicts p ++
      (Check.consistency p ++ (Check.safety p ++
        Check.duplicates p))))))), Analysis.lints.flatMap fun lint => lint p⟩ := by
  simp only [Analysis.run, Analysis.checks, List.mapM_cons, List.mapM_nil, looked]
  simp [bind, Except.bind, pure, Except.pure]

/-- The analysis of a complete personality does not fail. -/
theorem Analysis.run_ok {p : Personality} (complete : p.Complete) :
    ∃ analysis, Analysis.run p = .ok analysis := by
  obtain ⟨unreachable, looked, -⟩ := Check.unreachable_ok complete
  exact ⟨_, Analysis.run_eq looked⟩

namespace Personality

/-- Validation of a personality with everything in its place reports its own errors and,
as one more, the problems that the analysis finds. -/
theorem validate_eq {p : Personality} (complete : p.Complete) {analysis : Analysis}
    (ran : Analysis.run p = .ok analysis) : p.validate =
      (analysis, Validation.ownErrors p ++
      if analysis.isValid then [] else [.unsound analysis.problems]) := by
  have nothingMissing := (Validation.missing_eq_nil_iff p).mpr complete
  simp [validate, nothingMissing, ran]

/-- Validation of a personality with everything in its place reports nothing exactly when
its own conditions are met, every rule is reachable, and no other check finds a problem. -/
theorem validate_complete {p : Personality} (complete : p.Complete) :
    p.validate.2 = [] ↔ Validation.ownErrors p = [] ∧
      Check.circular p = [] ∧ Check.traitConflicts p = [] ∧ Check.determinism p = [] ∧
      ((∀ r ∈ p.behaviors, r.Reachable p) ∧
        ∀ r ∈ p.evolution, ∀ rule, r.effect = some (.adopt rule) → rule.Reachable p) ∧
      Check.domainReferences p = [] ∧ Check.modifierConflicts p = [] ∧
      Check.consistency p = [] ∧ Check.safety p = [] ∧ Check.duplicates p = [] := by
  obtain ⟨unreachable, looked, reported, -⟩ := Check.unreachable_ok complete
  rw [validate_eq complete (Analysis.run_eq looked), ← reported]
  simp [Analysis.isValid]

/-- Nothing is reported only of a personality with everything in its place. -/
theorem validate_incomplete {p : Personality} (passed : p.validate.2 = []) : p.Complete := by
  rw [← Validation.missing_eq_nil_iff]
  by_contra missing
  simp [validate, missing] at passed

/-- A personality whose numbers are finite passes validation exactly when it is sound. -/
theorem validate_eq_nil_iff {p : Personality} (finite : ∀ x ∈ p.numbers, x.isFinite = true) :
    p.validate.2 = [] ↔ p.Sound := by
  have traitNumbers : ∀ t ∈ p.traits, ∀ x ∈ t.numbers, x.isFinite = true :=
    fun t member x inTrait =>
    finite x (List.mem_append_left _ (List.mem_flatMap.mpr ⟨t, member, inTrait⟩))
  have ruleNumbers : ∀ r ∈ p.evolution, ∀ x ∈ r.numbers, x.isFinite = true := by
    intro r member x inRule
    apply finite
    simp only [numbers, List.mem_append, List.mem_flatMap]
    exact .inr (.inr (.inr ⟨r, member, inRule⟩))
  constructor
  · intro passed
    have complete := validate_incomplete passed
    obtain ⟨own, circular, traits, determinism, reachable, domains, modifiers, behaviors,
      safety, duplicates⟩ := (validate_complete complete).mp passed
    obtain ⟨named, strengths, domainsDistinct⟩ := (Validation.ownErrors_eq_nil_iff p).mp own
    have traitsDistinct := (Check.duplicates_eq_nil_iff p).mp duplicates
    obtain ⟨connectionsResolved, rulesResolved⟩ :=
      (Check.domainReferences_eq_nil_iff p).mp domains
    obtain ⟨consistent, styles⟩ := (Check.consistency_eq_nil_iff p).mp behaviors
    exact {
      complete, named, strengths, domainsDistinct, traitsDistinct, connectionsResolved,
      rulesResolved, consistent, styles
      acyclic := (Check.circular_eq_nil_iff p).mp circular
      unopposed := (Check.traitConflicts_eq_nil_iff p).mp traits
      decays := (Check.modifierConflicts_eq_nil_iff traitNumbers).mp modifiers
      determined := (Check.determinism_eq_nil_iff ruleNumbers).mp determinism
      behaviorsReachable := reachable.1
      adoptedReachable := reachable.2
      adjustable := ((Check.safety_eq_nil_iff traitsDistinct finite).mp safety).1 }
  · intro sound
    rw [validate_complete sound.complete]
    refine ⟨?_, ?_, ?_, ?_, ?_, ?_, ?_, ?_, ?_, ?_⟩
    · exact (Validation.ownErrors_eq_nil_iff p).mpr ⟨sound.named, sound.strengths,
        sound.domainsDistinct⟩
    · exact (Check.circular_eq_nil_iff p).mpr sound.acyclic
    · exact (Check.traitConflicts_eq_nil_iff p).mpr sound.unopposed
    · exact (Check.determinism_eq_nil_iff ruleNumbers).mpr sound.determined
    · exact ⟨sound.behaviorsReachable, sound.adoptedReachable⟩
    · exact (Check.domainReferences_eq_nil_iff p).mpr ⟨sound.connectionsResolved,
        sound.rulesResolved⟩
    · exact (Check.modifierConflicts_eq_nil_iff traitNumbers).mpr sound.decays
    · exact (Check.consistency_eq_nil_iff p).mpr ⟨sound.consistent, sound.styles⟩
    · exact (Check.safety_eq_nil_iff sound.traitsDistinct finite).mpr
        ⟨sound.adjustable, fun r member => (sound.rulesResolved r member).connect⟩
    · exact (Check.duplicates_eq_nil_iff p).mpr sound.traitsDistinct

/-- A sound personality. Two of its rules have triggers that agree though they are
different zeros, so their effects have to agree. -/
def balanced : Personality where
  name := "balanced"
  traits := [
    { name := "calm", strength := .ofRatio false 1 4
      modifiers := [some (.decay (.ofRatio false 1 10) .day),
        some (.when (some (.mood "late"))),
        some (.unless (some (.mood "early")))] }]
  knowledge := [
    { name := "tea", topics := [],
      connections := [⟨"tea", "garden", .ofRatio false 1 2, none⟩] },
    { name := "garden", topics := [], connections := [] }]
  behaviors := [⟨some (.traitAbove "calm" (.ofRatio false 1 2)), some (.prefer "shade")⟩,
    ⟨some .tired, some (.avoid "noise")⟩]
  evolution :=
    [⟨some (.feedback (.ofRatio false 0 1)), some (.adjust "calm" (.ofRatio false 3 4))⟩,
    ⟨some (.feedback (.ofRatio true 0 1)), some (.adjust "calm" (.ofRatio false 3 4))⟩,
    ⟨some (.timeIn "tea" .week 2), some (.connect "garden" "tea" (.ofRatio false 1 5))⟩]

/-- That personality is accepted, so it is sound. -/
theorem validate_eq_nil_iff_balanced : balanced.validate.2 = [] ∧ balanced.Sound := by
  have passed : balanced.validate.2 = [] := by decide +kernel
  exact ⟨passed, (validate_eq_nil_iff (by decide +kernel)).mp passed⟩

end Personality

end Persona
