import Mathlib.Data.List.Nodup
import Mathlib.Data.List.Pairwise
import Mathlib.Tactic.MkIffOfInductiveProp
import Persona.Proofs.Analysis.Acyclic
import Persona.Proofs.Analysis.Agreement
import Persona.Proofs.Analysis.Sound

/-!
# What the checks find

Each check finds nothing exactly when its part of soundness holds. The checks look
at pairs of different places, at first mentions and at second occurrences; what is
said of them here does not depend on places and order.
-/

namespace Persona

/-- A condition on all pairs is a condition on every element and each later one. -/
theorem forall_mem_pairs {α : Type} {R : α → α → Prop} (xs : List α) :
    (∀ q ∈ pairs xs, R q.1 q.2) ↔ xs.Pairwise R := by
  induction xs with
  | nil => simp [pairs]
  | cons x xs inductionHypothesis =>
    rw [pairs, List.forall_mem_append, inductionHypothesis, List.pairwise_cons,
      List.forall_mem_map]

/-- A symmetric condition that holds of each element with itself holds of all pairs
exactly when it holds of any two elements. -/
theorem forall_pairs_iff {α : Type} (R : α → α → Prop) {xs : List α}
    (symm : ∀ {a b}, R a b → R b a)
    (self : ∀ a ∈ xs, R a a) : (∀ q ∈ pairs xs, R q.1 q.2) ↔ ∀ a ∈ xs, ∀ b ∈ xs, R a b := by
  rw [forall_mem_pairs]
  have symmetric : Std.Symm R := ⟨fun _ _ => symm⟩
  constructor
  · exact fun pairwise a member b member' => pairwise.forall_of_forall self member member'
  · exact fun all => List.pairwise_of_forall_mem_list all

/-- No name is repeated exactly when the names are distinct and none was seen before. -/
theorem repetitions_eq_nil_iff (seen names : List Text) (distinct : seen.Nodup) :
    repetitions seen names = [] ↔ names.Nodup ∧ ∀ name ∈ names, name ∉ seen := by
  induction names generalizing seen with
  | nil => simp [repetitions]
  | cons name names inductionHypothesis =>
    have once : seen.count name = 1 ↔ name ∈ seen := by
      rw [← List.count_pos_iff]
      have atMostOnce := List.nodup_iff_count_le_one.mp distinct name
      omega
    unfold repetitions
    split
    · rename_i repeated
      simp [once.mp repeated]
    · rename_i new
      have unseen : name ∉ seen := fun member => new (once.mpr member)
      rw [inductionHypothesis (name :: seen) (List.nodup_cons.mpr ⟨unseen, distinct⟩),
        List.nodup_cons]
      simp only [List.mem_cons, not_or]
      grind

/-- A trait name is found exactly when it is declared. -/
theorem Personality.hasTrait_iff (p : Personality) (name : Text) :
    p.hasTrait name = true ↔ p.DeclaresTrait name := by
  simp [Personality.hasTrait, Personality.DeclaresTrait]

/-- A domain name is found exactly when it is declared. -/
theorem Personality.hasDomain_iff (p : Personality) (name : Text) :
    p.hasDomain name = true ↔ p.DeclaresDomain name := by
  simp [Personality.hasDomain, Personality.DeclaresDomain]

/-- The edges of the connection graph are the connections. -/
theorem Cycles.edge_successors (p : Personality) : Edge (successors p) = p.Connects := by
  funext a b
  exact propext (edge_iff p a b)

namespace Check

/-- No cycle is reported exactly when there is none. -/
theorem circular_eq_nil_iff (p : Personality) :
    circular p = [] ↔ ∀ name, ¬ Relation.TransGen p.Connects name name := by
  rw [circular, List.map_eq_nil_iff, Cycles.find_eq_nil_iff, Cycles.Acyclic,
    Cycles.edge_successors]

/-- No trait name is reported exactly when they are distinct. -/
theorem duplicates_eq_nil_iff (p : Personality) :
    duplicates p = [] ↔ (p.traits.map Trait.name).Nodup := by
  rw [duplicates, List.map_eq_nil_iff, repetitions_eq_nil_iff [] _ List.nodup_nil]
  simp

/-- Modifiers are opposed whichever comes first. -/
theorem opposed?_symm {a b : Option Modifier} (unopposed : opposed? a b = none) :
    opposed? b a = none := by
  unfold opposed? at unopposed ⊢
  split at unopposed <;> grind

/-- No modifier is opposed to itself. -/
theorem opposed?_self (a : Option Modifier) : opposed? a a = none := by
  cases a with
  | none => rfl
  | some m => cases m <;> rfl

/-- No two modifiers are opposed exactly when no circumstance both enables and
suppresses. -/
theorem unopposed_iff (modifiers : List (Option Modifier)) :
    (∀ a ∈ modifiers, ∀ b ∈ modifiers, opposed? a b = none) ↔
      ∀ context, ¬ (some (.when context) ∈ modifiers ∧
        some (.unless context) ∈ modifiers) := by
  constructor
  · rintro unopposed context ⟨enabled, suppressed⟩
    have clash := unopposed _ enabled _ suppressed
    simp [opposed?] at clash
  · intro unopposed a inList b inList'
    unfold opposed?
    split
    · rename_i c d
      rw [if_neg]
      rintro rfl
      exact unopposed c ⟨inList, inList'⟩
    · rename_i c d
      rw [if_neg]
      rintro rfl
      exact unopposed c ⟨inList', inList⟩
    · rfl

/-- No trait is reported exactly when none is both enabled and suppressed. -/
theorem traitConflicts_eq_nil_iff (p : Personality) : traitConflicts p = [] ↔
    ∀ t ∈ p.traits, ∀ context,
      ¬ (some (.when context) ∈ t.modifiers ∧ some (.unless context) ∈ t.modifiers) := by
  simp only [traitConflicts, List.flatMap_eq_nil_iff, List.filterMap_eq_nil_iff,
    Option.map_eq_none_iff]
  refine forall₂_congr fun t _ => ?_
  rw [← unopposed_iff, ← forall_pairs_iff (fun a b => opposed? a b = none) opposed?_symm]
  exact fun a _ => opposed?_self a

/-- Decays conflict whichever comes first. -/
theorem decayConflict?_symm {a b : Option Modifier} (agree : decayConflict? a b = none) :
    decayConflict? b a = none := by
  unfold decayConflict? at agree ⊢
  split at agree
  · rename_i r u s v
    simp only [ite_eq_right_iff, reduceCtorEq, imp_false, Bool.and_eq_true,
      Bool.not_eq_true', decide_eq_true_eq, not_and, Bool.not_eq_false] at agree ⊢
    exact fun same => Binary64.isAgreement_same.symm (agree same.symm)
  · grind

/-- No two decays conflict exactly when decays in one unit have the same rate. -/
theorem decays_iff (modifiers : List (Option Modifier)) :
    (∀ a ∈ modifiers, ∀ b ∈ modifiers, decayConflict? a b = none) ↔
      ∀ unit r s, some (.decay r unit) ∈ modifiers → some (.decay s unit) ∈ modifiers →
        r.same s = true := by
  constructor
  · intro agree unit r s first second
    have none := agree _ first _ second
    simpa [decayConflict?] using none
  · intro same a inList b inList'
    unfold decayConflict?
    split
    · rename_i r u s v
      rw [if_neg]
      simp only [Bool.and_eq_true, decide_eq_true_eq, Bool.not_eq_true', not_and,
        Bool.not_eq_false]
      rintro rfl
      exact same u r s inList inList'
    · rfl

/-- No trait is reported exactly when none decays at two rates in one unit. -/
theorem modifierConflicts_eq_nil_iff {p : Personality}
    (finite : ∀ t ∈ p.traits, ∀ n ∈ t.numbers, n.isFinite = true) :
    modifierConflicts p = [] ↔ ∀ t ∈ p.traits, ∀ unit r s, some (.decay r unit) ∈ t.modifiers →
      some (.decay s unit) ∈ t.modifiers → r.same s = true := by
  simp only [modifierConflicts, List.flatMap_eq_nil_iff, List.filterMap_eq_nil_iff,
    Option.map_eq_none_iff]
  refine forall₂_congr fun t member => ?_
  rw [← decays_iff, ← forall_pairs_iff (fun a b =>
    decayConflict? a b = none) decayConflict?_symm]
  rintro (_ | m) inList
  · rfl
  cases m with
  | decay r u =>
    have rate : r ∈ t.numbers := by
      simp only [Trait.numbers, List.mem_cons, List.mem_flatMap]
      exact .inr ⟨_, inList, by simp [Modifier.numbers]⟩
    simp [decayConflict?,
      Binary64.same_self (Binary64.ne_nan_of_isFinite (finite t member r rate))]
  | _ => rfl

/-- The two actions do not disagree: neither avoids what the other wants, and they do not
set one style to two values. -/
@[mk_iff] structure InHarmony (a b : Option Action) : Prop where
  forward : ∀ value, b = some (.avoid value) → a ≠ some (.prefer value) ∧
    a ≠ some (.seek value)
  backward : ∀ value, a = some (.avoid value) → b ≠ some (.prefer value) ∧
    b ≠ some (.seek value)
  style : ∀ key v w, a = some (.setStyle key v) → b = some (.setStyle key w) → v = w

/-- Harmony does not depend on the order. -/
theorem InHarmony.symm {a b : Option Action} (harmony : InHarmony a b) : InHarmony b a :=
  ⟨harmony.backward, harmony.forward, fun key v w first second =>
    (harmony.style key w v second first).symm⟩

/-- An action is in harmony with itself. -/
theorem InHarmony.self (a : Option Action) : InHarmony a a := by
  refine ⟨?_, ?_, ?_⟩
  · rintro value rfl
    simp
  · rintro value rfl
    simp
  · rintro key v w rfl same
    simpa using same

/-- Two actions have no conflict exactly when they are in harmony. -/
theorem actionConflicts_eq_nil_iff (first second : Action) :
    actionConflicts first second = [] ↔ InHarmony (some first) (some second) := by
  rw [inHarmony_iff]
  cases first <;> cases second <;> simp [actionConflicts, avoided?]
  grind

/-- No behaviors are reported exactly when none avoids what another wants and no style has
two values. -/
theorem consistency_eq_nil_iff (p : Personality) : consistency p = [] ↔
    (∀ a ∈ p.behaviors, ∀ b ∈ p.behaviors, ∀ value, b.action = some (.avoid value) →
      a.action ≠ some (.prefer value) ∧ a.action ≠ some (.seek value)) ∧
    ∀ a ∈ p.behaviors, ∀ b ∈ p.behaviors, ∀ key v w, a.action = some (.setStyle key v) →
      b.action = some (.setStyle key w) → v = w := by
  have harmony : consistency p = [] ↔ ∀ q ∈ pairs p.behaviors,
      InHarmony q.1.action q.2.action := by
    rw [consistency, List.flatMap_eq_nil_iff]
    refine forall₂_congr fun q _ => ?_
    obtain ⟨⟨_, a⟩, ⟨_, b⟩⟩ := q
    cases a with
    | none => simpa using ⟨by simp, by simp, by simp⟩
    | some first =>
      cases b with
      | none => simpa using ⟨by simp, by simp, by simp⟩
      | some second => exact actionConflicts_eq_nil_iff first second
  have anyTwo : (∀ q ∈ pairs p.behaviors, InHarmony q.1.action q.2.action) ↔
      ∀ a ∈ p.behaviors, ∀ b ∈ p.behaviors, InHarmony a.action b.action :=
    forall_pairs_iff (fun a b : BehaviorRule => InHarmony a.action b.action) InHarmony.symm
      fun r _ => InHarmony.self r.action
  rw [harmony, anyTwo]
  constructor
  · intro all
    exact ⟨fun a inList b inList' => (all a inList b inList').forward,
      fun a inList b inList' => (all a inList b inList').style⟩
  · rintro ⟨consistent, styles⟩ a inList b inList'
    exact ⟨consistent a inList b inList', consistent b inList' a inList,
      styles a inList b inList'⟩

/-- No mention is reported exactly when every name is known. -/
theorem unknownMentions_eq_nil_iff (p : Personality) (mentions : List (Text × Mention)) :
    unknownMentions p [] mentions = [] ↔ ∀ m ∈ mentions, p.DeclaresDomain m.1 := by
  induction mentions with
  | nil => simp [unknownMentions]
  | cons m mentions inductionHypothesis =>
    obtain ⟨name, mention⟩ := m
    rw [List.forall_mem_cons, ← inductionHypothesis, ← p.hasDomain_iff, unknownMentions]
    cases known : p.hasDomain name with
    | true => simp
    | false => simp

/-- The names that a rule mentions are known exactly when the rule is resolved. -/
theorem ruleMentions_iff (p : Personality) (r : EvolutionRule) :
    (∀ m ∈ ruleMentions r, p.DeclaresDomain m.1) ↔ r.Resolved p := by
  rw [ruleMentions, List.forall_mem_append, EvolutionRule.resolved_iff]
  refine and_congr ?_ ?_
  · cases r.trigger with
    | none => simp
    | some trigger => cases trigger <;> simp
  · cases r.effect with
    | none => simp
    | some effect => cases effect <;> simp

/-- No domain is reported exactly when every domain that is mentioned is declared. -/
theorem domainReferences_eq_nil_iff (p : Personality) : domainReferences p = [] ↔
    (∀ c ∈ p.connections, p.DeclaresDomain c.source ∧ p.DeclaresDomain c.target) ∧
      ∀ r ∈ p.evolution, r.Resolved p := by
  rw [domainReferences, unknownMentions_eq_nil_iff, mentions, List.forall_mem_append]
  simp only [List.forall_mem_flatMap, List.forall_mem_cons, ruleMentions_iff]
  simp

/-- A complete rule is looked at without failing, and is reported, as unreachable, exactly
when it depends on an unknown trait. -/
theorem unreachableRule_ok (p : Personality) (adopted : Bool) {r : BehaviorRule}
    (complete : r.Complete) :
    ∃ problems, unreachableRule p adopted r = .ok problems ∧ (problems = [] ↔ r.Reachable p) ∧
      ∀ x ∈ problems, x.kind = "UnreachableBehavior" := by
  obtain ⟨condition, action⟩ := r
  obtain ⟨c, rfl⟩ := Option.isSome_iff_exists.mp complete.1
  obtain ⟨a, rfl⟩ := Option.isSome_iff_exists.mp complete.2
  cases c with
  | traitAbove trait threshold =>
    have reachable : BehaviorRule.Reachable p ⟨some (.traitAbove trait threshold), some a⟩ ↔
        p.hasTrait trait = true := by
      simp [BehaviorRule.Reachable, p.hasTrait_iff]
    rw [reachable]
    cases known : p.hasTrait trait with
    | true => exact ⟨[], by simp [unreachableRule, known], by simp, by simp⟩
    | false =>
      exact ⟨_, by
        simp [unreachableRule, known]; rfl, by simp, List.forall_mem_singleton.mpr rfl⟩
  | _ => exact ⟨[], rfl, by simp [BehaviorRule.Reachable], by simp⟩

/-- Complete rules are all looked at, and none is reported exactly when all
are reachable. -/
theorem unreachableRules_ok (p : Personality) (adopted : Bool) {rules : List BehaviorRule}
    (complete : ∀ r ∈ rules, r.Complete) :
    ∃ problems, rules.mapM (unreachableRule p adopted) = .ok problems ∧
      (problems.flatten = [] ↔ ∀ r ∈ rules, r.Reachable p) ∧
      ∀ x ∈ problems.flatten, x.kind = "UnreachableBehavior" := by
  induction rules with
  | nil => exact ⟨[], rfl, by simp, by simp⟩
  | cons r rules inductionHypothesis =>
    obtain ⟨first, others⟩ := List.forall_mem_cons.mp complete
    obtain ⟨problems, looked, reported, kind⟩ := unreachableRule_ok p adopted first
    obtain ⟨more, lookedAll, reportedAll, kinds⟩ := inductionHypothesis others
    refine ⟨problems :: more, ?_, ?_, ?_⟩
    · rw [List.mapM_cons, looked, lookedAll]
      rfl
    · rw [List.flatten_cons, List.append_eq_nil_iff, reported, reportedAll,
        List.forall_mem_cons]
    · rw [List.flatten_cons]
      exact List.forall_mem_append.mpr ⟨kind, kinds⟩

/-- Of a complete personality no rule, declared or adopted, is reported exactly when all
are reachable. -/
theorem unreachable_ok {p : Personality} (complete : p.Complete) :
    ∃ problems, unreachable p = .ok problems ∧
      (problems = [] ↔ (∀ r ∈ p.behaviors, r.Reachable p) ∧
      ∀ r ∈ p.evolution, ∀ rule, r.effect = some (.adopt rule) → rule.Reachable p) ∧
      ∀ x ∈ problems, x.kind = "UnreachableBehavior" := by
  have adopts (r : EvolutionRule) (rule : BehaviorRule) :
      adopted? r.effect = some rule ↔ r.effect = some (.adopt rule) := by
    cases r.effect with
    | none => simp [adopted?]
    | some effect => cases effect <;> simp [adopted?]
  have adoptedComplete : ∀ rule ∈ p.evolution.filterMap fun r => adopted? r.effect,
      rule.Complete := by
    intro rule member
    obtain ⟨r, inRules, adopted⟩ := List.mem_filterMap.mp member
    obtain ⟨effect, there, effectComplete⟩ := (complete.evolution r inRules).2
    rw [adopts, there] at adopted
    obtain rfl := Option.some.inj adopted
    exact effectComplete
  obtain ⟨declared, lookedDeclared, reportedDeclared, kindDeclared⟩ :=
    unreachableRules_ok p false complete.behaviors
  obtain ⟨adopted, lookedAdopted, reportedAdopted, kindAdopted⟩ :=
    unreachableRules_ok p true adoptedComplete
  refine ⟨declared.flatten ++ adopted.flatten, ?_, ?_,
    List.forall_mem_append.mpr ⟨kindDeclared, kindAdopted⟩⟩
  · rw [unreachable, lookedDeclared, lookedAdopted]
    rfl
  · rw [List.append_eq_nil_iff, reportedDeclared, reportedAdopted]
    simp only [List.mem_filterMap, adopts]
    grind

/-- Of two numbers that are not NaN the one is not less exactly when the other is
less or equal. -/
theorem lt_eq_false_iff {x y : Binary64} (xPlaced : x.rank?.isSome = true)
    (yPlaced : y.rank?.isSome = true) :
    x.lt y = false ↔ y.le x = true := by
  obtain ⟨a, xRank⟩ := Option.isSome_iff_exists.mp xPlaced
  obtain ⟨b, yRank⟩ := Option.isSome_iff_exists.mp yPlaced
  simp [Binary64.lt, Binary64.le, xRank, yRank]

/-- A finite number is not NaN. -/
theorem finite_placed {x : Binary64} (finite : x.isFinite = true) : x.rank?.isSome = true := by
  cases x with
  | nan => cases finite
  | infinity negative => cases finite
  | finite negative code => rfl

/-- A rounded quotient is not NaN. -/
theorem ofRatio_placed (negative : Bool) (num den : Nat) :
    (Binary64.ofRatio negative num den).rank?.isSome = true := by
  unfold Binary64.ofRatio
  split
  · rfl
  dsimp only
  split <;> rfl

/-- The sum of finite numbers is not NaN, though it may be infinite. -/
theorem add_placed {x y : Binary64} (xFinite : x.isFinite = true)
    (yFinite : y.isFinite = true) :
    (x.add y).rank?.isSome = true := by
  match x, y, xFinite, yFinite with
  | .finite a m, .finite b n, _, _ =>
    simp only [Binary64.add, Binary64.ofSignedRatio]
    split
    · rfl
    · exact ofRatio_placed _ _ _

/-- With distinct trait names, the trait that is looked up is the only one of its name. -/
theorem trait?_iff {p : Personality} (distinct : (p.traits.map Trait.name).Nodup)
    (name : Text) (t : Trait) :
    p.trait? name = some t ↔ t ∈ p.traits ∧ t.name = name := by
  constructor
  · intro found
    exact ⟨List.mem_of_find?_eq_some found, by simpa using List.find?_some found⟩
  · rintro ⟨member, rfl⟩
    obtain ⟨other, found⟩ : ∃ other, p.trait? t.name = some other := by
      rw [← Option.isSome_iff_exists, Personality.trait?, List.find?_isSome]
      exact ⟨t, member, by simp⟩
    have sameName : other.name = t.name := by simpa using List.find?_some found
    have same := List.inj_on_of_nodup_map distinct (List.mem_of_find?_eq_some found) member
      sameName
    rw [found, same]

/-- An adjustment is not reported exactly when it is small and stays in bounds. -/
theorem adjustmentProblems_eq_nil_iff {p : Personality}
    (distinct : (p.traits.map Trait.name).Nodup)
    (strengths : ∀ t ∈ p.traits, t.strength.isFinite = true) (trait : Text) {delta : Binary64}
    (finite : delta.isFinite = true) : adjustmentProblems p trait delta = [] ↔
    p.Adjustable trait delta := by
  have absFinite : delta.abs.isFinite = true := by
    cases delta with
    | nan => cases finite
    | infinity negative => cases finite
    | finite negative code => rfl
  have small := lt_eq_false_iff (show dangerousDelta.rank?.isSome = true by decide +kernel)
    (finite_placed absFinite)
  have within (t : Trait) (member : t ∈ p.traits) : (t.strength.add delta).InUnit ↔
      ((t.strength.add delta).lt .zero ||
        (Binary64.ofRatio false 1 1).lt (t.strength.add delta)) = false := by
    have placed := add_placed (strengths t member) finite
    rw [Bool.or_eq_false_iff, lt_eq_false_iff placed rfl,
      lt_eq_false_iff (ofRatio_placed _ _ _) placed]
    rfl
  rw [adjustmentProblems, List.append_eq_nil_iff, Personality.adjustable_iff]
  refine and_congr ?_ ?_
  · rw [← small]
    cases dangerousDelta.lt delta.abs <;> simp
  · have found := trait?_iff distinct trait
    cases looked : p.trait? trait with
    | none =>
      simp only [looked, reduceCtorEq, false_iff, not_and] at found
      simpa using fun t member named => absurd named (found t member)
    | some t =>
      obtain ⟨member, named⟩ := (found t).mp looked
      have only : (∀ u ∈ p.traits, u.name = trait → (u.strength.add delta).InUnit) ↔
          (t.strength.add delta).InUnit := by
        constructor
        · exact fun all => all t member named
        · intro holds u inTraits sameName
          have same := (found u).mpr ⟨inTraits, sameName⟩
          rw [looked] at same
          rwa [← Option.some.inj same]
      rw [only, within t member]
      simp

/-- No evolution rule is reported exactly when adjustments are small and in bounds and the
rule connects nothing but declared domains. -/
theorem safety_eq_nil_iff {p : Personality} (distinct : (p.traits.map Trait.name).Nodup)
    (finite : ∀ x ∈ p.numbers, x.isFinite = true) : safety p = [] ↔
    (∀ r ∈ p.evolution, ∀ trait delta, r.effect = some (.adjust trait delta) →
      p.Adjustable trait delta) ∧
      ∀ r ∈ p.evolution, ∀ source target strength,
        r.effect = some (.connect source target strength) →
        p.DeclaresDomain source ∧ p.DeclaresDomain target := by
  obtain ⟨traitNumbers, others⟩ := List.forall_mem_append.mp finite
  have strengths : ∀ t ∈ p.traits, t.strength.isFinite = true := fun t member =>
    traitNumbers _ (List.mem_flatMap.mpr ⟨t, member, List.mem_cons_self⟩)
  rw [safety, List.flatMap_eq_nil_iff, ← forall₂_and]
  refine forall₂_congr fun r member => ?_
  have numbers : ∀ x ∈ r.effect.toList.flatMap Effect.numbers, x.isFinite = true := by
    intro x inEffect
    apply finite
    simp only [Personality.numbers, List.mem_append, List.mem_flatMap]
    exact .inr (.inr (.inr ⟨r, member, List.mem_append_right _ inEffect⟩))
  cases effect : r.effect with
  | none => simp
  | some e =>
    cases e with
    | adjust trait delta =>
      have deltaFinite : delta.isFinite = true :=
        numbers delta (by simp [effect, Effect.numbers])
      simp [adjustmentProblems_eq_nil_iff distinct strengths trait deltaFinite]
    | connect source target strength => simp [p.hasDomain_iff]
    | _ => simp

end Check

end Persona
