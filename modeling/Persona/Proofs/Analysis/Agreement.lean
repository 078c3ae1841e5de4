import Mathlib.Data.List.Induction
import Mathlib.Data.List.Pairwise
import Persona.Analysis.Checks
import Persona.Proofs.Personality.Numbers

/-!
# Agreement and groups

Agreement of parts is symmetric and transitive, and a part without a NaN agrees with
itself. That is what makes grouping rules by their triggers work: as long
as no group has two effects, each group is made by the one rule that leads it, and
every rule is one of these or agrees with one. So no group has two effects exactly
when rules with agreeing triggers have agreeing effects.
-/

namespace Persona

/-- The comparison is symmetric and transitive. -/
structure IsAgreement {α : Type} (agree : α → α → Bool) : Prop where
  symm {a b : α} : agree a b = true → agree b a = true
  trans {a b c : α} : agree a b = true → agree b c = true → agree a c = true

/-- Numbers are the same when they have the same place on the line. -/
theorem Binary64.same_iff (x y : Binary64) : x.same y = true ↔ ∃ rank, x.rank? = some rank ∧
    y.rank? = some rank := by
  unfold Binary64.same
  cases x.rank? with
  | none => simp
  | some a =>
    cases y.rank? with
    | none => simp
    | some b => simpa using eq_comm

/-- Sameness of numbers is an agreement. -/
theorem Binary64.isAgreement_same : IsAgreement Binary64.same where
  symm := by
    intro x y same
    obtain ⟨rank, first, second⟩ := (same_iff x y).mp same
    exact (same_iff y x).mpr ⟨rank, second, first⟩
  trans := by
    intro x y z same following
    obtain ⟨rank, first, second⟩ := (same_iff x y).mp same
    obtain ⟨other, third, fourth⟩ := (same_iff y z).mp following
    obtain rfl := Option.some.inj (second.symm.trans third)
    exact (same_iff x z).mpr ⟨rank, first, fourth⟩

/-- A finite number is not a NaN. -/
theorem Binary64.ne_nan_of_isFinite {x : Binary64} (finite : x.isFinite = true) :
    x ≠ .nan := by
  rintro rfl
  cases finite

/-- Everything but a NaN is the same as itself. -/
theorem Binary64.same_self {x : Binary64} (number : x ≠ .nan) : x.same x = true := by
  cases x with
  | nan => exact absurd rfl number
  | infinity negative => simp [Binary64.same, Binary64.rank?]
  | finite negative code => simp [Binary64.same, Binary64.rank?]

/-- Agreement of parts gives agreement of optional parts. -/
theorem IsAgreement.optional {α : Type} {agree : α → α → Bool}
    (agreement : IsAgreement agree) :
    IsAgreement (agreeing agree) where
  symm := by
    intro a b
    cases a <;> cases b <;> simp [agreeing]
    exact agreement.symm
  trans := by
    intro a b c
    cases a <;> cases b <;> cases c <;> simp [agreeing]
    exact agreement.trans

/-- Conditions agree when they are equal or compare one trait with the same number. -/
theorem Condition.agrees_cases {a b : Condition} (agree : a.agrees b = true) :
    a = b ∨ ∃ trait x y, a = .traitAbove trait x ∧ b = .traitAbove trait y ∧
    x.same y = true := by
  cases a with
  | traitAbove trait x =>
    cases b with
    | traitAbove other y =>
      simp only [Condition.agrees, Bool.and_eq_true, beq_iff_eq] at agree
      obtain ⟨rfl, same⟩ := agree
      exact .inr ⟨trait, x, y, rfl, rfl, same⟩
    | _ => simp [Condition.agrees] at agree
  | _ => exact .inl (by simpa [Condition.agrees] using agree)

/-- Agreement of conditions. -/
theorem Condition.isAgreement_agrees : IsAgreement Condition.agrees where
  symm := by
    intro a b agree
    rcases agrees_cases agree with rfl | ⟨trait, x, y, rfl, rfl, same⟩
    · exact agree
    · simpa [Condition.agrees] using Binary64.isAgreement_same.symm same
  trans := by
    intro a b c agree following
    rcases agrees_cases agree with rfl | ⟨trait, x, y, rfl, rfl, same⟩
    · exact following
    rcases agrees_cases following with rfl | ⟨_, _, z, same', rfl, more⟩
    · exact agree
    · obtain ⟨rfl, rfl⟩ := Condition.traitAbove.inj same'
      simpa [Condition.agrees] using Binary64.isAgreement_same.trans same more

/-- Agreement of behavior rules. -/
theorem BehaviorRule.isAgreement_agrees : IsAgreement BehaviorRule.agrees where
  symm := by
    intro a b agree
    simp only [BehaviorRule.agrees, Bool.and_eq_true, beq_iff_eq] at agree ⊢
    exact ⟨Condition.isAgreement_agrees.optional.symm agree.1, agree.2.symm⟩
  trans := by
    intro a b c agree following
    simp only [BehaviorRule.agrees, Bool.and_eq_true, beq_iff_eq] at agree following ⊢
    exact ⟨Condition.isAgreement_agrees.optional.trans agree.1 following.1,
      agree.2.trans following.2⟩

/-- Triggers agree when they are equal or wait for the same score. -/
theorem Trigger.agrees_cases {a b : Trigger} (agree : a.agrees b = true) :
    a = b ∨ ∃ x y, a = .feedback x ∧ b = .feedback y ∧ x.same y = true := by
  cases a with
  | feedback x =>
    cases b with
    | feedback y => exact .inr ⟨x, y, rfl, rfl, agree⟩
    | _ => simp [Trigger.agrees] at agree
  | _ => exact .inl (by simpa [Trigger.agrees] using agree)

/-- Agreement of triggers. -/
theorem Trigger.isAgreement_agrees : IsAgreement Trigger.agrees where
  symm := by
    intro a b agree
    rcases agrees_cases agree with rfl | ⟨x, y, rfl, rfl, same⟩
    · exact agree
    · exact Binary64.isAgreement_same.symm same
  trans := by
    intro a b c agree following
    rcases agrees_cases agree with rfl | ⟨x, y, rfl, rfl, same⟩
    · exact following
    rcases agrees_cases following with rfl | ⟨_, z, same', rfl, more⟩
    · exact agree
    · obtain rfl := Trigger.feedback.inj same'
      exact Binary64.isAgreement_same.trans same more

/-- Effects agree when they are equal or differ only in numbers that are the same. -/
theorem Effect.agrees_cases {a b : Effect} (agree : a.agrees b = true) :
    a = b ∨ (∃ trait x y, a = .adjust trait x ∧ b = .adjust trait y ∧ x.same y = true) ∨
      (∃ source target x y, a = .connect source target x ∧ b = .connect source target y ∧
      x.same y = true) ∨
        ∃ r q, a = .adopt r ∧ b = .adopt q ∧ r.agrees q = true := by
  cases a with
  | adjust trait x =>
    cases b with
    | adjust other y =>
      simp only [Effect.agrees, Bool.and_eq_true, beq_iff_eq] at agree
      obtain ⟨rfl, same⟩ := agree
      exact .inr (.inl ⟨trait, x, y, rfl, rfl, same⟩)
    | _ => simp [Effect.agrees] at agree
  | unlock domain => exact .inl (by simpa [Effect.agrees] using agree)
  | connect source target x =>
    cases b with
    | connect source' target' y =>
      simp only [Effect.agrees, Bool.and_eq_true, beq_iff_eq] at agree
      obtain ⟨⟨rfl, rfl⟩, same⟩ := agree
      exact .inr (.inr (.inl ⟨source, target, x, y, rfl, rfl, same⟩))
    | _ => simp [Effect.agrees] at agree
  | adopt r =>
    cases b with
    | adopt q => exact .inr (.inr (.inr ⟨r, q, rfl, rfl, agree⟩))
    | _ => simp [Effect.agrees] at agree

/-- Agreement of effects. -/
theorem Effect.isAgreement_agrees : IsAgreement Effect.agrees where
  symm := by
    intro a b agree
    rcases agrees_cases agree with rfl | ⟨trait, x, y, rfl, rfl, same⟩ |
        ⟨source, target, x, y, rfl, rfl, same⟩ |
      ⟨r, q, rfl, rfl, rules⟩
    · exact agree
    · simpa [Effect.agrees] using Binary64.isAgreement_same.symm same
    · simpa [Effect.agrees] using Binary64.isAgreement_same.symm same
    · exact BehaviorRule.isAgreement_agrees.symm rules
  trans := by
    intro a b c agree following
    rcases agrees_cases agree with rfl | ⟨trait, x, y, rfl, rfl, same⟩ |
        ⟨source, target, x, y, rfl, rfl, same⟩ |
      ⟨r, q, rfl, rfl, rules⟩
    · exact following
    · cases c with
      | adjust other z =>
        simp only [Effect.agrees, Bool.and_eq_true, beq_iff_eq] at following ⊢
        exact ⟨following.1, Binary64.isAgreement_same.trans same following.2⟩
      | _ => simp [Effect.agrees] at following
    · cases c with
      | connect source' target' z =>
        simp only [Effect.agrees, Bool.and_eq_true, beq_iff_eq] at following ⊢
        exact ⟨following.1, Binary64.isAgreement_same.trans same following.2⟩
      | _ => simp [Effect.agrees] at following
    · cases c with
      | adopt s => exact BehaviorRule.isAgreement_agrees.trans rules following
      | _ => simp [Effect.agrees] at following

/-- An optional part agrees with itself when the part does. -/
theorem agreeing_self {α : Type} {agree : α → α → Bool} {numbers : α → List Binary64}
    (self : ∀ x, (∀ n ∈ numbers x, n ≠ .nan) → agree x x = true) (part : Option α)
    (free : ∀ n ∈ part.toList.flatMap numbers, n ≠ .nan) :
    agreeing agree part part = true := by
  cases part with
  | none => rfl
  | some x => exact self x (by simpa using free)

/-- A condition without a NaN agrees with itself. -/
theorem Condition.agrees_self (c : Condition) (free : ∀ n ∈ c.numbers, n ≠ .nan) :
    c.agrees c = true := by
  cases c with
  | traitAbove trait threshold =>
    simpa [Condition.agrees] using Binary64.same_self
      (free threshold (by simp [Condition.numbers]))
  | _ => simp [Condition.agrees]

/-- A behavior rule without a NaN agrees with itself. -/
theorem BehaviorRule.agrees_self (r : BehaviorRule) (free : ∀ n ∈ r.numbers, n ≠ .nan) :
    r.agrees r = true := by
  have condition := agreeing_self Condition.agrees_self r.condition free
  simp [BehaviorRule.agrees, condition]

/-- A trigger without a NaN agrees with itself. -/
theorem Trigger.agrees_self (t : Trigger) (free : ∀ n ∈ t.numbers, n ≠ .nan) :
    t.agrees t = true := by
  cases t with
  | feedback score => exact Binary64.same_self (free score (by simp [Trigger.numbers]))
  | _ => simp [Trigger.agrees]

/-- An effect without a NaN agrees with itself. -/
theorem Effect.agrees_self (e : Effect) (free : ∀ n ∈ e.numbers, n ≠ .nan) :
    e.agrees e = true := by
  cases e with
  | adjust trait delta =>
    simpa [Effect.agrees] using Binary64.same_self (free delta (by simp [Effect.numbers]))
  | unlock domain => simp [Effect.agrees]
  | connect source target strength =>
    simpa [Effect.agrees] using Binary64.same_self (free strength (by simp [Effect.numbers]))
  | adopt rule => exact rule.agrees_self free

/-- An evolution rule without a NaN agrees with itself. -/
theorem EvolutionRule.agrees_self (r : EvolutionRule) (free : ∀ n ∈ r.numbers, n ≠ .nan) :
    r.agrees r = true := by
  obtain ⟨inTrigger, inEffect⟩ := List.forall_mem_append.mp free
  have trigger := agreeing_self Trigger.agrees_self r.trigger inTrigger
  have effect := agreeing_self Effect.agrees_self r.effect inEffect
  simp [EvolutionRule.agrees, trigger, effect]

namespace Check

/-- The two rules have agreeing triggers. -/
abbrev sameTrigger (a b : Option Trigger) : Bool := agreeing Trigger.agrees a b

/-- The two rules have agreeing effects. -/
abbrev sameEffect (a b : Option Effect) : Bool := agreeing Effect.agrees a b

/-- If the two rules have agreeing triggers, then their effects agree. -/
def Consistent (a b : EvolutionRule) : Prop :=
  sameTrigger a.trigger b.trigger = true → sameEffect a.effect b.effect = true

/-- Consistency does not depend on the order. -/
theorem Consistent.symm {a b : EvolutionRule} (consistent : Consistent a b) :
    Consistent b a := by
  intro agree
  exact Effect.isAgreement_agrees.optional.symm
    (consistent (Trigger.isAgreement_agrees.optional.symm agree))

/-- The group that a rule makes on its own. -/
def ownGroup (r : EvolutionRule) : Group := ⟨r.trigger, [r.effect]⟩

/-- Some of the rules stand for all of them: no two of these have agreeing triggers, and
every rule is one of them or agrees with one of them. -/
structure Led (rules leaders : List EvolutionRule) : Prop where
  among : ∀ l ∈ leaders, l ∈ rules
  apart : leaders.Pairwise fun a b => sameTrigger a.trigger b.trigger = false
  covered : ∀ r ∈ rules, ∃ l ∈ leaders,
    l = r ∨ (sameTrigger l.trigger r.trigger = true ∧ sameEffect l.effect r.effect = true)

/-- An effect that is added agrees with one that is there, or is new and comes last. -/
theorem Group.add_cases (g : Group) (e : Option Effect) :
    ((∃ other ∈ g.effects, sameEffect other e = true) ∧ g.add e = g) ∨
      ((∀ other ∈ g.effects, sameEffect other e = false) ∧
      (g.add e).effects = g.effects ++ [e]) := by
  unfold Group.add
  split
  · rename_i there
    exact .inl ⟨List.any_eq_true.mp there, rfl⟩
  · rename_i absent
    exact .inr ⟨by simpa using absent, rfl⟩

/-- A rule is added to the first group with an agreeing trigger, or makes a group behind
all others. -/
theorem addToGroups_cases (r : EvolutionRule) (gs : List Group) :
    (∃ before g after, gs = before ++ g :: after ∧ sameTrigger g.trigger r.trigger = true ∧
      addToGroups r gs = before ++ g.add r.effect :: after) ∨
    ((∀ g ∈ gs, sameTrigger g.trigger r.trigger = false) ∧
      addToGroups r gs = gs ++ [⟨r.trigger, [r.effect]⟩]) := by
  induction gs with
  | nil => exact .inr ⟨by simp, rfl⟩
  | cons g gs inductionHypothesis =>
    unfold addToGroups
    split
    · rename_i agree
      exact .inl ⟨[], g, gs, rfl, agree, rfl⟩
    · rename_i differ
      rcases inductionHypothesis with ⟨before, h, after, rfl, agree, added⟩ | ⟨others, added⟩
      · exact .inl ⟨g :: before, h, after, rfl, agree, by rw [added]; rfl⟩
      · exact .inr ⟨List.forall_mem_cons.mpr ⟨by simpa using differ, others⟩, by
          rw [added]; rfl⟩

/-- A group with several effects keeps them. -/
theorem exists_large_addToGroups {gs : List Group} (r : EvolutionRule)
    (large : ∃ g ∈ gs, 1 < g.effects.length) :
    ∃ g ∈ addToGroups r gs, 1 < g.effects.length := by
  obtain ⟨g, member, several⟩ := large
  rcases addToGroups_cases r gs with ⟨before, h, after, rfl, -, added⟩ | ⟨-, added⟩
  · rw [added]
    rcases List.mem_append.mp member with inBefore | rest
    · exact ⟨g, List.mem_append_left _ inBefore, several⟩
    rcases List.mem_cons.mp rest with rfl | inAfter
    · refine ⟨g.add r.effect, by simp, ?_⟩
      rcases g.add_cases r.effect with ⟨-, same⟩ | ⟨-, effects⟩
      · rwa [same]
      · rw [effects, List.length_append]
        omega
    · exact ⟨g, by simp [inAfter], several⟩
  · rw [added]
    exact ⟨g, List.mem_append_left _ member, several⟩

/-- A rule whose trigger agrees with that of another one has a leader whose
trigger does, too. -/
theorem Led.leader {rules leaders : List EvolutionRule} (led : Led rules leaders)
    {a r : EvolutionRule}
    (member : a ∈ rules) (agree : sameTrigger a.trigger r.trigger = true) :
    ∃ l ∈ leaders, sameTrigger l.trigger r.trigger = true ∧
      (l = a ∨ sameEffect l.effect a.effect = true) := by
  obtain ⟨l, inLeaders, rfl | ⟨trigger, effect⟩⟩ := led.covered a member
  · exact ⟨l, inLeaders, agree, .inl rfl⟩
  · exact ⟨l, inLeaders, Trigger.isAgreement_agrees.optional.trans trigger agree, .inr effect⟩

/-- At most one leader has a trigger that agrees with a given one. -/
theorem Led.eq_of_agree {rules leaders : List EvolutionRule} (led : Led rules leaders)
    {k l r : EvolutionRule} (inLeaders : k ∈ leaders) (inLeaders' : l ∈ leaders)
    (first : sameTrigger k.trigger r.trigger = true)
    (second : sameTrigger l.trigger r.trigger = true) : k = l := by
  have triggers := Trigger.isAgreement_agrees.optional
  have different : Std.Symm fun a b : EvolutionRule =>
      sameTrigger a.trigger b.trigger = false := by
    refine ⟨fun a b differ => ?_⟩
    by_contra agree
    have back := triggers.symm (Bool.not_eq_false _ ▸ agree)
    exact Bool.false_ne_true (differ.symm.trans back)
  by_contra differ
  have apart := led.apart.forall inLeaders inLeaders' differ
  exact Bool.false_ne_true (apart.symm.trans (triggers.trans first (triggers.symm second)))

/-- A rule that agrees with a leader is consistent with all rules. -/
theorem Led.consistent {rules leaders : List EvolutionRule} (led : Led rules leaders)
    {a l r : EvolutionRule}
    (inLeaders : l ∈ leaders) (trigger : sameTrigger l.trigger r.trigger = true)
    (effect : sameEffect l.effect r.effect = true) (member : a ∈ rules) : Consistent a r := by
  intro agree
  obtain ⟨k, inLeaders', trigger', leads⟩ := led.leader member agree
  obtain rfl := led.eq_of_agree inLeaders' inLeaders trigger' trigger
  rcases leads with rfl | effect'
  · exact effect
  · exact Effect.isAgreement_agrees.optional.trans
      (Effect.isAgreement_agrees.optional.symm effect') effect

/-- One more rule that leads itself. -/
theorem Led.lead {rules leaders : List EvolutionRule} (led : Led rules leaders)
    {r : EvolutionRule} (differ : ∀ l ∈ leaders, sameTrigger l.trigger r.trigger = false) :
    Led (rules ++ [r]) (leaders ++ [r]) where
  among := by
    intro l member
    rcases List.mem_append.mp member with old | last
    · exact List.mem_append_left _ (led.among l old)
    · exact List.mem_append_right _ last
  apart := by
    rw [List.pairwise_append]
    exact ⟨led.apart, List.pairwise_singleton _ _, by simpa using differ⟩
  covered := by
    intro q member
    rcases List.mem_append.mp member with old | last
    · obtain ⟨l, inLeaders, leads⟩ := led.covered q old
      exact ⟨l, List.mem_append_left _ inLeaders, leads⟩
    · exact ⟨q, List.mem_append_right _ last, .inl rfl⟩

/-- One more rule that is led by a rule that leads others. -/
theorem Led.follow {rules leaders : List EvolutionRule} (led : Led rules leaders)
    {l r : EvolutionRule}
    (inLeaders : l ∈ leaders) (trigger : sameTrigger l.trigger r.trigger = true)
    (effect : sameEffect l.effect r.effect = true) : Led (rules ++ [r]) leaders where
  among := fun k member => List.mem_append_left _ (led.among k member)
  apart := led.apart
  covered := by
    intro q member
    rcases List.mem_append.mp member with old | last
    · exact led.covered q old
    · obtain rfl := List.mem_singleton.mp last
      exact ⟨l, inLeaders, .inr ⟨trigger, effect⟩⟩

/-- Either the rules are consistent and each group has the one effect of the rule that
leads it, or they are not and some group has several effects. -/
theorem groups_cases (rules : List EvolutionRule) :
    (rules.Pairwise Consistent ∧ ∃ leaders, Led rules leaders ∧
      groups rules = leaders.map ownGroup) ∨
      (¬ rules.Pairwise Consistent ∧ ∃ g ∈ groups rules, 1 < g.effects.length) := by
  -- Rules are added to the groups one by one, so the list grows at its end.
  induction rules using List.reverseRecOn with
  | nil => exact .inl ⟨.nil, [], ⟨by simp, .nil, by simp⟩, rfl⟩
  | append_singleton rules r inductionHypothesis =>
    have grown : groups (rules ++ [r]) = addToGroups r (groups rules) := by simp [groups]
    have pairwise : (rules ++ [r]).Pairwise Consistent ↔
        rules.Pairwise Consistent ∧ ∀ a ∈ rules, Consistent a r := by
      simp [List.pairwise_append]
    rw [grown, pairwise]
    rcases inductionHypothesis with ⟨consistent, leaders, led, same⟩ | ⟨inconsistent, large⟩
    case inr => exact .inr ⟨fun both => inconsistent both.1, exists_large_addToGroups r large⟩
    rw [same]
    rcases addToGroups_cases r (leaders.map ownGroup) with ⟨before, g, after, split, agree,
      added⟩ | ⟨differ, added⟩
    · obtain ⟨firsts, lasts, rfl, rfl, others⟩ := List.map_eq_append_iff.mp split
      obtain ⟨l, rest, rfl, rfl, rfl⟩ := List.map_eq_cons_iff.mp others
      have inLeaders : l ∈ firsts ++ l :: rest := by simp
      rw [added]
      rcases (ownGroup l).add_cases r.effect with ⟨⟨_, only, effect⟩, unchanged⟩ |
          ⟨new, effects⟩
      · obtain rfl := List.mem_singleton.mp only
        exact .inl ⟨⟨consistent, fun a => led.consistent inLeaders agree effect⟩, _,
          led.follow inLeaders agree effect, by rw [unchanged]; simp⟩
      · refine .inr ⟨fun both =>
          ?_, (ownGroup l).add r.effect, by simp, by rw [effects]; simp [ownGroup]⟩
        have differ := new l.effect (List.mem_singleton_self _)
        exact Bool.false_ne_true (differ.symm.trans (both.2 l (led.among l inLeaders) agree))
    · have differ : ∀ l ∈ leaders, sameTrigger l.trigger r.trigger = false := by
        intro l inLeaders
        exact differ (ownGroup l) (List.mem_map_of_mem inLeaders)
      refine .inl ⟨⟨consistent, ?_⟩, _, led.lead differ, by rw [added]; simp [ownGroup]⟩
      intro a member agree
      obtain ⟨l, inLeaders, trigger, -⟩ := led.leader member agree
      exact absurd trigger (by simp [differ l inLeaders])

/-- No trigger has two effects exactly when any two rules are consistent. This does not
need finite numbers: a rule with a trigger that does not agree with itself has a group
of its own. -/
theorem determinism_eq_nil_iff_pairwise (p : Personality) :
    determinism p = [] ↔ p.evolution.Pairwise Consistent := by
  have single : determinism p = [] ↔ ∀ g ∈ groups p.evolution, g.effects.length ≤ 1 := by
    simp [determinism, List.filterMap_eq_nil_iff]
  rw [single]
  rcases groups_cases p.evolution with ⟨consistent, leaders, -, same⟩ |
      ⟨inconsistent, g, member, several⟩
  · refine iff_of_true ?_ consistent
    rw [same, List.forall_mem_map]
    exact fun l _ => Nat.le_refl 1
  · exact iff_of_false (fun all => Nat.not_le_of_lt several (all g member)) inconsistent

/-- No trigger has two effects exactly when agreeing triggers have agreeing effects. -/
theorem determinism_eq_nil_iff {p : Personality}
    (finite : ∀ r ∈ p.evolution, ∀ n ∈ r.numbers, n.isFinite = true) :
    determinism p = [] ↔ ∀ a ∈ p.evolution, ∀ b ∈ p.evolution,
      sameTrigger a.trigger b.trigger = true → sameEffect a.effect b.effect = true := by
  have self : ∀ r ∈ p.evolution, Consistent r r := by
    intro r member _
    refine agreeing_self Effect.agrees_self r.effect fun n inEffect =>
      Binary64.ne_nan_of_isFinite ?_
    exact finite r member n (List.mem_append_right _ inEffect)
  have symmetric : Std.Symm Consistent := ⟨fun _ _ => Consistent.symm⟩
  rw [determinism_eq_nil_iff_pairwise]
  constructor
  · exact fun pairwise a member b member' => pairwise.forall_of_forall self member member'
  · exact fun all => List.pairwise_of_forall_mem_list all

end Check

end Persona
