import Mathlib.Data.List.Perm.Subperm
import Persona.Proofs.Validation
import Persona.Simplify

/-!
# Simplification only takes away

A pass may take modifiers from traits, may take evolution rules away and may put those
that are left in another order. It never touches anything else. Passes of this kind
can be run one after the other, so the same is true of a whole simplification; and
whatever a check looks at, it finds less of it afterwards.
-/

namespace Persona

open Simplify

/-- The trait with no more than some modifiers taken away. -/
structure Trait.Trims (t u : Trait) : Prop where
  name : u.name = t.name
  strength : u.strength = t.strength
  modifiers : u.modifiers.Sublist t.modifiers

/-- The personality with no more than some modifiers and some evolution rules taken away,
and the other rules reordered. -/
structure Personality.Trims (p q : Personality) : Prop where
  name : q.name = p.name
  traits : ∃ trim : Trait → Trait, (∀ t : Trait, t.Trims (trim t)) ∧
    q.traits = p.traits.map trim
  knowledge : q.knowledge = p.knowledge
  behaviors : q.behaviors = p.behaviors
  evolution : q.evolution.Subperm p.evolution

variable {p q r : Personality}

/-- Nothing need be taken away. -/
theorem Trait.Trims.refl (t : Trait) : t.Trims t := ⟨rfl, rfl, List.Sublist.refl _⟩

/-- Nothing need be taken away. -/
theorem Personality.Trims.refl (p : Personality) : p.Trims p :=
  ⟨rfl, ⟨id, Trait.Trims.refl, (List.map_id _).symm⟩, rfl, rfl, List.Subperm.refl _⟩

/-- More can be taken away. -/
theorem Trait.Trims.trans {t u v : Trait} (first : t.Trims u) (second : u.Trims v) :
    t.Trims v :=
  ⟨second.name.trans first.name, second.strength.trans first.strength,
    second.modifiers.trans first.modifiers⟩

/-- More can be taken away. -/
theorem Personality.Trims.trans (first : p.Trims q) (second : q.Trims r) : p.Trims r where
  name := second.name.trans first.name
  traits := by
    obtain ⟨trim, trims, same⟩ := first.traits
    obtain ⟨trim', trims', same'⟩ := second.traits
    exact ⟨trim' ∘ trim, fun t =>
      (trims t).trans (trims' (trim t)), by rw [same', same, List.map_map]⟩
  knowledge := second.knowledge.trans first.knowledge
  behaviors := second.behaviors.trans first.behaviors
  evolution := second.evolution.trans first.evolution

namespace Simplify

/-- Folding takes modifiers away. -/
theorem fold_trims (p : Personality) (stats : Stats) : p.Trims (fold p stats).1 :=
  { Personality.Trims.refl p with
    traits := ⟨foldTrait, fun _ => ⟨rfl, rfl, List.filter_sublist⟩, rfl⟩ }

/-- Dropping dead rules takes rules away. -/
theorem dropDead_trims (p : Personality) (stats : Stats) : p.Trims (dropDead p stats).1 :=
  { Personality.Trims.refl p with evolution := List.filter_sublist.subperm }

/-- Reordering changes the order of rules. -/
theorem reorder_trims (p : Personality) (stats : Stats) : p.Trims (reorder p stats).1 :=
  { Personality.Trims.refl p with evolution := (List.mergeSort_perm _ _).subperm }

/-- Every pass only takes away. -/
theorem pass_trims {degree : Degree} {pass : Pass} (member : pass ∈ passes degree)
    (p : Personality) (stats : Stats) : p.Trims (pass p stats).1 := by
  have known : pass = fold ∨ pass = dropDead ∨ pass = hint ∨ pass = countCommon ∨
      pass = reorder := by
    cases degree with
    | none => cases member
    | basic =>
      simp only [passes, List.mem_cons, List.not_mem_nil, or_false] at member
      tauto
    | aggressive => simpa only [passes, List.mem_cons, List.not_mem_nil, or_false] using member
  rcases known with rfl | rfl | rfl | rfl | rfl
  · exact fold_trims p stats
  · exact dropDead_trims p stats
  · exact Personality.Trims.refl p
  · exact Personality.Trims.refl p
  · exact reorder_trims p stats

/-- Passes that only take away, run one after the other, only take away. -/
theorem foldl_trims {rest : List Pass}
    (only : ∀ pass ∈ rest, ∀ (p : Personality) stats, p.Trims (pass p stats).1)
    (start : Personality × Stats) :
    start.1.Trims (rest.foldl (fun state pass => pass state.1 state.2) start).1 := by
  induction rest generalizing start with
  | nil => exact Personality.Trims.refl start.1
  | cons pass rest inductionHypothesis =>
    obtain ⟨first, others⟩ := List.forall_mem_cons.mp only
    exact (first start.1 start.2).trans (inductionHypothesis others _)

end Simplify

/-- Simplification only takes away. -/
theorem Personality.trims_simplify (p : Personality) (degree : Degree) :
    p.Trims (p.simplify degree).1 :=
  foldl_trims (fun _ member => pass_trims member) (p, { degree := degree })

namespace Personality.Trims

/-- The traits keep their names. -/
theorem traitNames (trims : p.Trims q) :
    q.traits.map Trait.name = p.traits.map Trait.name := by
  obtain ⟨trim, kept, same⟩ := trims.traits
  rw [same, List.map_map]
  exact List.map_congr_left fun t _ => (kept t).name

/-- The same trait names are found. -/
theorem hasTrait (trims : p.Trims q) : q.hasTrait = p.hasTrait := by
  funext name
  have known (r : Personality) : r.hasTrait name =
      (r.traits.map Trait.name).any (· == name) := by
    rw [List.any_map]
    rfl
  rw [known, known, trims.traitNames]

/-- The same domain names are found. -/
theorem hasDomain (trims : p.Trims q) : q.hasDomain = p.hasDomain := by
  funext name
  rw [Personality.hasDomain, Personality.hasDomain, trims.knowledge]

/-- The same traits are declared. -/
theorem declaresTrait (trims : p.Trims q) (name : Text) : q.DeclaresTrait name ↔
    p.DeclaresTrait name := by
  rw [← q.hasTrait_iff, ← p.hasTrait_iff, trims.hasTrait]

/-- The same domains are declared. -/
theorem declaresDomain (trims : p.Trims q) (name : Text) : q.DeclaresDomain name ↔
    p.DeclaresDomain name := by
  rw [← q.hasDomain_iff, ← p.hasDomain_iff, trims.hasDomain]

/-- The same rules are reachable. -/
theorem reachable (trims : p.Trims q) (rule : BehaviorRule) :
    rule.Reachable q ↔ rule.Reachable p := by
  simp only [BehaviorRule.Reachable, trims.declaresTrait]

/-- The same connections are there. -/
theorem connections (trims : p.Trims q) : q.connections = p.connections := by
  rw [Personality.connections, Personality.connections, trims.knowledge]

/-- A trait that is looked up has the same strength. -/
theorem trait? (trims : p.Trims q) (name : Text) :
    (q.trait? name).map Trait.strength = (p.trait? name).map Trait.strength := by
  obtain ⟨trim, kept, same⟩ := trims.traits
  have sameTest : (fun t => t.name == name) ∘ trim = fun t : Trait => t.name == name := by
    funext t
    rw [Function.comp_apply, (kept t).name]
  have sameStrength : Trait.strength ∘ trim = Trait.strength := by
    funext t
    exact (kept t).strength
  rw [Personality.trait?, Personality.trait?, same, List.find?_map, sameTest,
    Option.map_map, sameStrength]

/-- What is left of a complete personality is complete. -/
theorem complete (trims : p.Trims q) (complete : p.Complete) : q.Complete where
  modifiers := by
    obtain ⟨trim, kept, same⟩ := trims.traits
    rw [same, List.forall_mem_map]
    intro t member m inTrait
    exact complete.modifiers t member m ((kept t).modifiers.subset inTrait)
  behaviors := trims.behaviors ▸ complete.behaviors
  evolution := fun r member => complete.evolution r (trims.evolution.subset member)

end Personality.Trims

/-- Whatever kind is found in the one list is found in the other. -/
def KindsWithin (fewer more : List Problem) : Prop := ∀ x ∈ fewer, ∃ y ∈ more, y.kind = x.kind

/-- Problems that are in the other list are of a kind that is. -/
theorem KindsWithin.of_subset {fewer more : List Problem} (subset : fewer ⊆ more) :
    KindsWithin fewer more :=
  fun x member => ⟨x, subset member, rfl⟩

/-- The same problems are of the same kinds. -/
theorem KindsWithin.of_eq {fewer more : List Problem} (same : fewer = more) :
    KindsWithin fewer more :=
  .of_subset fun _ member => same ▸ member

/-- If problems can only be of one kind, it is enough that there are some. -/
theorem KindsWithin.of_kind {fewer more : List Problem} (kind : Text)
    (first : ∀ x ∈ fewer, x.kind = kind)
    (second : ∀ y ∈ more, y.kind = kind) (nothing : more = [] → fewer = []) :
    KindsWithin fewer more := by
  intro x member
  cases more with
  | nil => simp [nothing rfl] at member
  | cons y rest =>
    exact ⟨y, List.mem_cons_self, (second y List.mem_cons_self).trans (first x member).symm⟩

/-- Kinds of several lists are among the kinds of several others. -/
theorem KindsWithin.append {fewer more fewer' more' : List Problem}
    (first : KindsWithin fewer more)
    (second : KindsWithin fewer' more') : KindsWithin (fewer ++ fewer') (more ++ more') := by
  intro x member
  rcases List.mem_append.mp member with inFirst | inSecond
  · obtain ⟨y, found, same⟩ := first x inFirst
    exact ⟨y, List.mem_append_left _ found, same⟩
  · obtain ⟨y, found, same⟩ := second x inSecond
    exact ⟨y, List.mem_append_right _ found, same⟩

/-- Fewer elements make fewer pairs. -/
theorem pairs_subset {α : Type} {xs ys : List α} (sublist : xs.Sublist ys) :
    pairs xs ⊆ pairs ys := by
  induction sublist with
  | slnil => exact List.Subset.refl _
  | cons y sublist inductionHypothesis =>
    exact fun q member => List.mem_append_right _ (inductionHypothesis member)
  | cons_cons x sublist inductionHypothesis =>
    intro q member
    rcases List.mem_append.mp member with first | rest
    · exact List.mem_append_left _ (List.map_subset _ sublist.subset first)
    · exact List.mem_append_right _ (inductionHypothesis rest)

/-- What the check of triggers finds is of one kind. -/
theorem Check.kind_determinism (x : Problem) (member : x ∈ determinism p) :
    x.kind = "NonDeterministicEvolution" := by
  obtain ⟨g, -, reported⟩ := List.mem_filterMap.mp member
  split at reported
  · obtain rfl := Option.some.inj reported
    rfl
  · cases reported

/-- What the check of domains finds is of one kind. -/
theorem Check.kind_domainReferences (x : Problem) (member : x ∈ domainReferences p) :
    x.kind = "InvalidDomainReference" := by
  have mentioned (reported : List Text) (mentions : List (Text × Mention)) :
      ∀ x ∈ unknownMentions p reported mentions, x.kind = "InvalidDomainReference" := by
    induction mentions generalizing reported with
    | nil => simp [unknownMentions]
    | cons m mentions inductionHypothesis =>
      unfold unknownMentions
      split
      · exact inductionHypothesis reported
      · exact List.forall_mem_cons.mpr ⟨rfl, inductionHypothesis _⟩
  exact mentioned [] (mentions p) x member

namespace Personality.Trims

open Check

/-- The graph of connections stays the same. -/
theorem circular (trims : p.Trims q) : Check.circular q = Check.circular p := by
  have successors : Cycles.successors q = Cycles.successors p := by
    funext node
    rw [Cycles.successors, Cycles.successors, trims.connections]
  have nodes : Cycles.nodes q = Cycles.nodes p := by
    rw [Cycles.nodes, Cycles.nodes, trims.knowledge, trims.connections]
  rw [Check.circular, Check.circular, Cycles.find, Cycles.find, nodes, successors]

/-- The behaviors are at odds as they were. -/
theorem consistency (trims : p.Trims q) : Check.consistency q = Check.consistency p := by
  rw [Check.consistency, Check.consistency, trims.behaviors]

/-- Pairs of modifiers that are at odds were so before. -/
theorem oddPairs_subset (trims : p.Trims q)
    (atOdds : Text → Option Modifier × Option Modifier → Option Problem) :
    (q.traits.flatMap fun t => (pairs t.modifiers).filterMap (atOdds t.name)) ⊆
      p.traits.flatMap fun t => (pairs t.modifiers).filterMap (atOdds t.name) := by
  obtain ⟨trim, kept, same⟩ := trims.traits
  intro problem member
  rw [same, List.flatMap_map] at member
  obtain ⟨t, inTraits, found⟩ := List.mem_flatMap.mp member
  obtain ⟨pair, inPairs, odd⟩ := List.mem_filterMap.mp found
  rw [(kept t).name] at odd
  have inPairs' := pairs_subset (kept t).modifiers inPairs
  exact List.mem_flatMap.mpr ⟨t, inTraits, List.mem_filterMap.mpr ⟨pair, inPairs', odd⟩⟩

/-- Conflicting circumstances were there before. -/
theorem traitConflicts_subset (trims : p.Trims q) :
    Check.traitConflicts q ⊆ Check.traitConflicts p :=
  trims.oddPairs_subset fun name pair => (opposed? pair.1 pair.2).map (.traitConflict name)

/-- Conflicting decays were there before. -/
theorem modifierConflicts_subset (trims : p.Trims q) :
    Check.modifierConflicts q ⊆ Check.modifierConflicts p :=
  trims.oddPairs_subset fun name pair => (decayConflict? pair.1 pair.2).map
    fun rates : Binary64 × Binary64 × TimeUnit =>
      .modifierConflict name rates.1 rates.2.1 rates.2.2

/-- The problems of an adjustment stay the same. -/
theorem adjustmentProblems (trims : p.Trims q) :
    Check.adjustmentProblems q = Check.adjustmentProblems p := by
  funext name delta
  have strength := (trims.trait? name).symm
  unfold Check.adjustmentProblems
  cases looked : q.trait? name with
  | none =>
    have absent : p.trait? name = none := by simpa [looked] using strength
    rw [absent]
  | some t =>
    obtain ⟨u, found, same⟩ : ∃ u, p.trait? name = some u ∧ u.strength = t.strength := by
      simpa [looked] using strength
    rw [found]
    simp only [same]

/-- Unsafe rules were there before. -/
theorem safety_subset (trims : p.Trims q) : Check.safety q ⊆ Check.safety p := by
  intro problem member
  obtain ⟨r, inRules, found⟩ := List.mem_flatMap.mp member
  rw [trims.adjustmentProblems, trims.hasDomain] at found
  exact List.mem_flatMap.mpr ⟨r, trims.evolution.subset inRules, found⟩

/-- If the triggers had one effect each, they still have. -/
theorem determinism_eq_nil (trims : p.Trims q) (nothing : Check.determinism p = []) :
    Check.determinism q = [] := by
  rw [determinism_eq_nil_iff_pairwise] at nothing ⊢
  obtain ⟨kept, perm, sublist⟩ := trims.evolution
  exact (perm.pairwise_iff Consistent.symm).mp (nothing.sublist sublist)

/-- If the domains were known, they still are. -/
theorem domainReferences_eq_nil (trims : p.Trims q) (nothing : Check.domainReferences p = []) :
    Check.domainReferences q = [] := by
  rw [domainReferences, unknownMentions_eq_nil_iff] at nothing ⊢
  intro mention member
  rw [trims.declaresDomain]
  apply nothing
  rcases List.mem_append.mp member with inConnections | inRules
  · exact List.mem_append_left _ (trims.connections ▸ inConnections)
  · obtain ⟨r, inEvolution, mentioned⟩ := List.mem_flatMap.mp inRules
    exact List.mem_append_right _
      (List.mem_flatMap.mpr ⟨r, trims.evolution.subset inEvolution, mentioned⟩)

/-- The analysis of what is left of a complete personality finds no new kind
of problem. -/
theorem kindsWithin (trims : p.Trims q) (complete : p.Complete) :
    ∃ before after, Analysis.run p = .ok before ∧ Analysis.run q = .ok after ∧
      KindsWithin after.problems before.problems := by
  obtain ⟨unreachable, looked, reported, kind⟩ := Check.unreachable_ok complete
  obtain ⟨unreachable', looked', reported', kind'⟩ :=
    Check.unreachable_ok (trims.complete complete)
  refine ⟨_, _, Analysis.run_eq looked, Analysis.run_eq looked', ?_⟩
  refine .append ?circular
    (.append ?traits (.append ?determinism (.append ?unreachable (.append ?domains
    (.append ?modifiers (.append ?consistency (.append ?safety ?duplicates)))))))
  case circular => exact .of_eq trims.circular
  case traits => exact .of_subset trims.traitConflicts_subset
  case determinism =>
    exact .of_kind "NonDeterministicEvolution" kind_determinism kind_determinism
      trims.determinism_eq_nil
  case unreachable =>
    refine .of_kind "UnreachableBehavior" kind' kind fun nothing => reported'.mpr ?_
    obtain ⟨declared, adopted⟩ := reported.mp nothing
    exact ⟨fun r member => (trims.reachable r).mpr (declared r (trims.behaviors ▸ member)),
      fun r member rule effect =>
        (trims.reachable rule).mpr (adopted r (trims.evolution.subset member) rule effect)⟩
  case domains =>
    exact .of_kind "InvalidDomainReference" kind_domainReferences kind_domainReferences
      trims.domainReferences_eq_nil
  case modifiers => exact .of_subset trims.modifierConflicts_subset
  case consistency => exact .of_eq trims.consistency
  case safety => exact .of_subset trims.safety_subset
  case duplicates =>
    exact .of_eq (by rw [Check.duplicates, Check.duplicates, trims.traitNames])

/-- What is left has the same errors of its own. -/
theorem ownErrors (trims : p.Trims q) : Validation.ownErrors q = Validation.ownErrors p := by
  obtain ⟨trim, kept, same⟩ := trims.traits
  have strengths : ((q.traits.filter fun t => !Validation.isStrength t.strength).map fun t =>
      CompileError.invalidStrength t.name t.strength) =
      (p.traits.filter fun t => !Validation.isStrength t.strength).map fun t =>
        .invalidStrength t.name t.strength := by
    rw [same, List.filter_map, List.map_map]
    simp only [Function.comp_def, (kept _).name, (kept _).strength]
  rw [Validation.ownErrors, Validation.ownErrors, strengths, trims.name, trims.knowledge]

end Personality.Trims

end Persona
