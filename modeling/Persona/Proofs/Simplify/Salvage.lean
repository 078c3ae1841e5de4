import Persona.Proofs.Personality.Storable
import Persona.Proofs.Simplify.Validity

/-!
# What simplification takes with it

A request simplifies before it validates. So a fault that lies in an idle modifier or
in a dead rule is gone before anyone looks for it, and a document that is rejected as
it stands may be accepted once it is simplified. This is exactly what can happen: a
rejected document is still rejected unless all that is wrong with it is that idle
decays disagree with others or that rules are at fault that mention unknown names.
-/

namespace Persona

open Simplify
open Relation (TransGen)

/-- Every trait and every domain that the rule needs is declared. -/
@[mk_iff] structure EvolutionRule.Live (p : Personality) (r : EvolutionRule) : Prop where
  resolved : r.Resolved p
  adjusts : ∀ trait delta, r.effect = some (.adjust trait delta) → p.DeclaresTrait trait
  adopts : ∀ rule, r.effect = some (.adopt rule) → rule.Reachable p

/-- A rule is dropped exactly when it is not live. -/
theorem Simplify.isDead_eq_false_iff (p : Personality) (r : EvolutionRule) :
    isDead p r = false ↔ r.Live p := by
  rw [EvolutionRule.live_iff, EvolutionRule.resolved_iff, isDead, Bool.or_eq_false_iff,
    and_assoc]
  refine and_congr ?trigger ?effect
  case trigger =>
    cases r.trigger with
    | none => simp
    | some trigger => cases trigger <;> simp [← p.hasDomain_iff]
  case effect =>
    cases r.effect with
    | none => simp
    | some effect =>
      cases effect with
      | adopt rule =>
        obtain ⟨condition, action⟩ := rule
        cases condition with
        | none => simp [BehaviorRule.Reachable]
        | some condition => cases condition <;> simp [BehaviorRule.Reachable, ← p.hasTrait_iff]
      | adjust trait delta => simp [← p.hasTrait_iff]
      | unlock domain => simp [← p.hasDomain_iff]
      | connect source target strength => simp [← p.hasDomain_iff]

/-- What is left to be wrong with a personality when idle decays and rules that are not
live do not count. -/
structure Personality.Salvageable (p : Personality) : Prop where
  named : p.name ≠ []
  strengths : ∀ t ∈ p.traits, t.strength.InUnit
  domainsDistinct : (p.knowledge.map Domain.name).Nodup
  traitsDistinct : (p.traits.map Trait.name).Nodup
  acyclic : ∀ name, ¬ TransGen p.Connects name name
  unopposed : ∀ t ∈ p.traits, ∀ context,
    ¬ (some (.when context) ∈ t.modifiers ∧ some (.unless context) ∈ t.modifiers)
  /-- A trait does not decay at two rates in one unit, except where one of them is not
  above zero. -/
  decays : ∀ t ∈ p.traits, ∀ unit r s, some (.decay r unit) ∈ t.modifiers →
    some (.decay s unit) ∈ t.modifiers →
    r.le .zero = false → s.le .zero = false → r.same s = true
  /-- Live rules with equal triggers have equal effects. -/
  determined : ∀ a ∈ p.evolution, ∀ b ∈ p.evolution, a.Live p → b.Live p →
    agreeing Trigger.agrees a.trigger b.trigger = true →
      agreeing Effect.agrees a.effect b.effect = true
  behaviorsReachable : ∀ r ∈ p.behaviors, r.Reachable p
  connectionsResolved : ∀ c ∈ p.connections, p.DeclaresDomain c.source ∧
    p.DeclaresDomain c.target
  consistent : ∀ a ∈ p.behaviors, ∀ b ∈ p.behaviors, ∀ value, b.action = some (.avoid value) →
    a.action ≠ some (.prefer value) ∧ a.action ≠ some (.seek value)
  styles : ∀ a ∈ p.behaviors, ∀ b ∈ p.behaviors, ∀ key v w, a.action = some (.setStyle key v) →
    b.action = some (.setStyle key w) → v = w
  /-- What a live rule adjusts stays within bounds. -/
  adjustable : ∀ r ∈ p.evolution, r.Live p →
    ∀ trait delta, r.effect = some (.adjust trait delta) →
    p.Adjustable trait delta

variable {p q : Personality} {degree : Degree}

namespace Personality.Trims

/-- The same rules are live. -/
theorem live (trims : p.Trims q) (r : EvolutionRule) : r.Live q ↔ r.Live p := by
  rw [← isDead_eq_false_iff, ← isDead_eq_false_iff, isDead, isDead, trims.hasTrait,
    trims.hasDomain]

/-- The same adjustments are possible. -/
theorem adjustable (trims : p.Trims q) (trait : Text) (delta : Binary64) :
    q.Adjustable trait delta ↔ p.Adjustable trait delta := by
  obtain ⟨trim, kept, same⟩ := trims.traits
  rw [adjustable_iff, adjustable_iff, same, List.forall_mem_map]
  simp only [(kept _).name, (kept _).strength]

end Personality.Trims

/-- The personality without its idle modifiers and without the rules that are not live. -/
structure Personality.Pares (p q : Personality) : Prop where
  trims : p.Trims q
  traits : q.traits = p.traits.map foldTrait
  rules : ∀ r, r ∈ q.evolution ↔ r ∈ p.evolution ∧ r.Live p

namespace Personality

/-- At each degree but the lowest, idle modifiers and rules that are not live are gone. -/
theorem pares_simplify (p : Personality) (asked : degree ≠ .none) :
    p.Pares (p.simplify degree).1 := by
  have kept (r : EvolutionRule) : r ∈ (p.simplify .basic).1.evolution ↔ r ∈ p.evolution ∧
      r.Live p := by
    have folded := fold_trims p { degree := .basic }
    calc r ∈ (p.simplify .basic).1.evolution
        ↔ r ∈ p.evolution ∧ isDead (fold p { degree := .basic }).1 r = false := by
          simp [simplify, passes, dropDead, hint, fold]
      _ ↔ r ∈ p.evolution ∧ r.Live p := by rw [isDead_eq_false_iff, folded.live]
  refine ⟨p.trims_simplify degree, ?_, ?_⟩
  · cases degree with
    | none => exact absurd rfl asked
    | basic => rfl
    | aggressive => rfl
  · intro r
    cases degree with
    | none => exact absurd rfl asked
    | basic => exact kept r
    | aggressive =>
      rw [← kept]
      exact (List.mergeSort_perm _ _).mem_iff

/-- A modifier is left to a trait exactly if it is not idle. -/
theorem mem_foldTrait {t : Trait} {m : Option Modifier} :
    m ∈ (foldTrait t).modifiers ↔ m ∈ t.modifiers ∧ isIdle m = false := by
  simp [foldTrait]

/-- What is left has no new numbers. -/
theorem Trims.numbers_subset (trims : p.Trims q) : q.numbers ⊆ p.numbers := by
  obtain ⟨trim, kept, same⟩ := trims.traits
  intro x member
  simp only [Personality.numbers, List.mem_append, List.mem_flatMap] at member ⊢
  rcases member with ⟨u, inTraits, among⟩ | ⟨c, inConnections, among⟩ |
      ⟨r, inBehaviors, among⟩ | ⟨r, inRules, among⟩
  · rw [same] at inTraits
    obtain ⟨t, inPersonality, rfl⟩ := List.mem_map.mp inTraits
    refine .inl ⟨t, inPersonality, ?_⟩
    rcases List.mem_cons.mp among with rfl | inModifiers
    · exact List.mem_cons.mpr (.inl (kept t).strength)
    · obtain ⟨m, inTrait, ofModifier⟩ := List.mem_flatMap.mp inModifiers
      exact List.mem_cons_of_mem _
        (List.mem_flatMap.mpr ⟨m, (kept t).modifiers.subset inTrait, ofModifier⟩)
  · exact .inr (.inl ⟨c, trims.connections ▸ inConnections, among⟩)
  · exact .inr (.inr (.inl ⟨r, trims.behaviors ▸ inBehaviors, among⟩))
  · exact .inr (.inr (.inr ⟨r, trims.evolution.subset inRules, among⟩))

namespace Pares

/-- Circumstances are at odds as they were: what depends on one is never idle. -/
theorem traitConflicts_eq_nil_iff (pares : p.Pares q) : Check.traitConflicts q = [] ↔
    ∀ t ∈ p.traits, ∀ context, ¬ (some (.when context) ∈ t.modifiers ∧
      some (.unless context) ∈ t.modifiers) := by
  rw [Check.traitConflicts_eq_nil_iff, pares.traits, List.forall_mem_map]
  simp only [mem_foldTrait, isIdle, and_true]

/-- Decays are at odds only if neither is idle. -/
theorem modifierConflicts_eq_nil_iff (pares : p.Pares q)
    (finite : ∀ x ∈ q.numbers, x.isFinite = true) :
    Check.modifierConflicts q = [] ↔ ∀ t ∈ p.traits, ∀ unit r s,
    some (.decay r unit) ∈ t.modifiers →
      some (.decay s unit) ∈ t.modifiers → r.le .zero = false → s.le .zero = false →
      r.same s = true := by
  rw [Check.modifierConflicts_eq_nil_iff (fun t member => ?_), pares.traits,
    List.forall_mem_map]
  · simp only [mem_foldTrait, isIdle]
    grind
  · exact fun x among =>
      finite x (List.mem_append_left _ (List.mem_flatMap.mpr ⟨t, member, among⟩))

/-- Only live rules have to be consistent. -/
theorem determinism_eq_nil_iff (pares : p.Pares q)
    (finite : ∀ x ∈ q.numbers, x.isFinite = true) :
    Check.determinism q = [] ↔ ∀ a ∈ p.evolution, ∀ b ∈ p.evolution, a.Live p → b.Live p →
      agreeing Trigger.agrees a.trigger b.trigger = true →
      agreeing Effect.agrees a.effect b.effect = true := by
  rw [Check.determinism_eq_nil_iff fun r member x among => ?_]
  · simp only [pares.rules]
    grind
  · apply finite
    simp only [Personality.numbers, List.mem_append, List.mem_flatMap]
    exact .inr (.inr (.inr ⟨r, member, among⟩))

/-- Live rules adopt nothing that cannot be reached. -/
theorem reachable_iff (pares : p.Pares q) :
    ((∀ r ∈ q.behaviors, r.Reachable q) ∧
      ∀ r ∈ q.evolution, ∀ rule, r.effect = some (.adopt rule) → rule.Reachable q) ↔
    ∀ r ∈ p.behaviors, r.Reachable p := by
  simp only [pares.trims.reachable, pares.trims.behaviors, and_iff_left_iff_imp]
  intro _ r member
  exact ((pares.rules r).mp member).2.adopts

/-- Live rules mention no unknown domains. -/
theorem domainReferences_eq_nil_iff (pares : p.Pares q) : Check.domainReferences q = [] ↔
    ∀ c ∈ p.connections, p.DeclaresDomain c.source ∧ p.DeclaresDomain c.target := by
  rw [Check.domainReferences_eq_nil_iff]
  simp only [pares.trims.declaresDomain, pares.trims.connections, and_iff_left_iff_imp]
  intro _ r member
  exact ((pares.trims.live r).mpr ((pares.rules r).mp member).2).resolved

/-- Only what live rules adjust has to stay within bounds. -/
theorem safety_eq_nil_iff (pares : p.Pares q) (distinct : (q.traits.map Trait.name).Nodup)
    (finite : ∀ x ∈ q.numbers, x.isFinite = true) : Check.safety q = [] ↔
    ∀ r ∈ p.evolution, r.Live p → ∀ trait delta, r.effect = some (.adjust trait delta) →
      p.Adjustable trait delta := by
  have live (r : EvolutionRule) (member : r ∈ q.evolution) : r.Live q :=
    (pares.trims.live r).mpr ((pares.rules r).mp member).2
  rw [Check.safety_eq_nil_iff distinct finite, and_iff_left fun r member =>
    (live r member).resolved.connect]
  simp only [pares.rules, pares.trims.adjustable, and_imp]

/-- Validation accepts what is left exactly when the personality can be salvaged. -/
theorem accepted_iff (pares : p.Pares q) (storable : p.Storable) :
    q.validate.2 = [] ↔ p.Salvageable := by
  have finite : ∀ x ∈ q.numbers, x.isFinite = true := fun x member =>
    storable.finite x (pares.trims.numbers_subset member)
  rw [validate_complete (pares.trims.complete storable.complete), pares.trims.ownErrors,
    Validation.ownErrors_eq_nil_iff, pares.trims.circular, Check.circular_eq_nil_iff,
    pares.traitConflicts_eq_nil_iff, pares.determinism_eq_nil_iff finite, pares.reachable_iff,
    pares.domainReferences_eq_nil_iff, pares.modifierConflicts_eq_nil_iff finite,
    pares.trims.consistency, Check.consistency_eq_nil_iff, Check.duplicates_eq_nil_iff,
    pares.trims.traitNames]
  constructor
  · rintro ⟨⟨named, strengths, domainsDistinct⟩, acyclic, unopposed, determined,
      behaviorsReachable, connectionsResolved, decays, ⟨consistent, styles⟩, safe,
      traitsDistinct⟩
    have adjustable :=
      (pares.safety_eq_nil_iff (pares.trims.traitNames ▸ traitsDistinct) finite).mp safe
    exact { named, strengths, domainsDistinct, traitsDistinct, acyclic, unopposed, decays,
            determined, behaviorsReachable, connectionsResolved, consistent, styles,
            adjustable }
  · intro salvageable
    have distinct : (q.traits.map Trait.name).Nodup :=
      pares.trims.traitNames ▸ salvageable.traitsDistinct
    have safe := (pares.safety_eq_nil_iff distinct finite).mpr salvageable.adjustable
    exact ⟨⟨salvageable.named, salvageable.strengths, salvageable.domainsDistinct⟩,
      salvageable.acyclic, salvageable.unopposed, salvageable.determined,
      salvageable.behaviorsReachable, salvageable.connectionsResolved, salvageable.decays,
      ⟨salvageable.consistent, salvageable.styles⟩, safe, salvageable.traitsDistinct⟩

end Pares

end Personality

/-- Compiling fails with what is reported exactly if the target is unknown or validation
has something to report. -/
theorem CompileOptions.compile_rejected_iff (options : CompileOptions) (p : Personality)
    (target context : Text) :
    (∃ errors, (options.compile p target context).result = .error (.rejected errors)) ↔
      options.emitter? target = none ∨ p.validate.2 ≠ [] := by
  unfold compile
  split
  · rename_i unknown
    exact iff_of_true ⟨_, rfl⟩ (.inl unknown)
  · rename_i emitter found
    by_cases passed : p.validate.2 = []
    · cases emitter p context <;> simp [found, passed]
    · simp [found, passed]

namespace Request

/-- The request fails with compile errors. -/
def Rejected (q : Request) (options : RunOptions) : Prop :=
  ∃ errors, (Runner.run ⟨options, none⟩ q).2.2.failure =
    some (.within ("compile " ++ displayName q.file) (.rejected errors))

/-- A request is rejected exactly if its document can be read, but its target is unknown
or validation has something to report about what is left of the document. -/
theorem rejected_iff {q : Request} {options : RunOptions} : q.Rejected options ↔
    q.canceled = false ∧
    ∃ p, (Personality.read (q.readingOptions options) q.source).result = .ok p ∧
      (options.compile.emitter? q.target = none ∨ (q.simplified p).1.validate.2 ≠ []) := by
  unfold Rejected
  cases asked : q.canceled with
  | true => simp [Runner.run, asked]
  | false =>
    rw [Runner.run_uncached options asked, Request.make_response]
    simp only [true_and, ← options.compile.compile_rejected_iff _ q.target q.context]
    unfold build
    dsimp only
    cases (Personality.read (q.readingOptions options) q.source).result with
    | error errors => simp
    | ok p =>
      simp only [Except.ok.injEq, exists_eq_left']
      cases (options.compile.compile (q.simplified p).1 q.target q.context).result with
      | error failure => simp
      | ok compiled => simp [blank]

/-- A document whose one rule unlocks a domain that is not there. -/
def haunted : Request where
  source :=
    "personality \"x\" \x7b evolution \x7b if learns(\"a\") then unlock(ghost) \x7d \x7d"
  file := []
  target := "lua"
  context := []
  degree := .none

/-- As it stands the document is rejected, but once its rule is dropped it is compiled. -/
theorem haunted_laid : haunted.Rejected {} ∧ ¬ { haunted with degree := .basic }.Rejected {} ∧
    (Runner.run ⟨{}, none⟩ { haunted with degree := .basic }).2.2.failure = none := by
  have succeeds : (Runner.run ⟨{}, none⟩ { haunted with degree := .basic }).2.2.failure =
      none := by decide +kernel
  refine ⟨⟨[.unsound [.unknownDomain "ghost" .unlockEffect]], by decide +kernel⟩, ?_, succeeds⟩
  rintro ⟨errors, failed⟩
  rw [succeeds] at failed
  cases failed

/-- A request that is rejected without simplification is rejected at the other degrees,
too, unless its target is known and its document can be salvaged: nothing is wrong with it
but decays that disagree where one of them is idle, and rules that are not live. In that
case, and only then, it is not rejected. -/
theorem rejected_simplified_iff {q : Request} {options : RunOptions} {degree : Degree}
    (rejected : { q with degree := .none }.Rejected options) (asked : degree ≠ .none) :
    { q with degree := degree }.Rejected options ↔ options.compile.emitter? q.target = none ∨
      ∃ p, (Personality.read (q.readingOptions options) q.source).result = .ok p ∧
        ¬ p.Salvageable := by
  obtain ⟨asked', p, read, -⟩ := rejected_iff.mp rejected
  have same : ({ q with degree := degree } : Request).simplified p =
      ((p.simplify degree).1, some (p.simplify degree).2) := by simp [simplified, asked]
  have accepted := (p.pares_simplify asked).accepted_iff
    (Personality.printable_of_read read).storable
  rw [rejected_iff]
  constructor
  · rintro ⟨-, p', read', unknown | faulty⟩
    · exact .inl unknown
    · obtain rfl := Except.ok.inj (read.symm.trans read')
      rw [same] at faulty
      exact .inr ⟨p, read, fun salvageable => faulty (accepted.mpr salvageable)⟩
  · rintro (unknown | ⟨p', read', faulty⟩)
    · exact ⟨asked', p, read, .inl unknown⟩
    · obtain rfl := Except.ok.inj (read.symm.trans read')
      refine ⟨asked', p, read, .inr ?_⟩
      rw [same]
      exact fun passed => faulty (accepted.mp passed)

/-- The document with a second fault: it does not give a name. -/
def nameless : Request :=
  { haunted with
    source := "personality \"\" \x7b
      evolution \x7b if learns(\"a\") then unlock(ghost) \x7d \x7d" }

/-- What the document holds. -/
def namelessness : Personality where
  name := []
  traits := []
  knowledge := []
  behaviors := []
  evolution := [⟨some (.learns "a"), some (.unlock "ghost")⟩]

/-- Simplification does not remove the second fault, so the document is rejected
all the same. -/
theorem rejected_simplified_iff_nameless :
    { nameless with degree := .none }.Rejected {} ∧
    { nameless with degree := .aggressive }.Rejected {} := by
  have read : (Personality.read (nameless.readingOptions {}) nameless.source).result =
      .ok namelessness := by
    decide +kernel
  have rejected : { nameless with degree := .none }.Rejected {} :=
    ⟨namelessness.validate.2, by decide +kernel⟩
  have unsalvageable : ¬ namelessness.Salvageable := fun salvageable => salvageable.named rfl
  exact ⟨rejected, (rejected_simplified_iff rejected (by decide)).mpr
    (.inr ⟨namelessness, read, unsalvageable⟩)⟩

end Request

end Persona
