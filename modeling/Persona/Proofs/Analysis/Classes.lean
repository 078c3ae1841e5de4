import Mathlib.Data.List.Perm.Subperm
import Persona.Proofs.Analysis.Agreement

/-!
# Classes of agreeing parts

Agreement divides parts without a NaN into classes. Some of the parts represent the
classes: no two of them agree, and each part agrees with one. Whichever are chosen, there
are equally many, so their number is the number of different parts.

Rules are grouped by such representatives. Each group has the trigger of one class, and
with it one of each of the different effects that rules of this class have. So a trigger
is reported exactly if it has several effects, once, and with their number.
-/

namespace Persona

/-- Some of the parts, in their order, stand for the classes of all: no two agree, and
each part agrees with one. -/
structure StandFor {α : Type} (agree : α → α → Bool) (parts chosen : List α) : Prop where
  among : chosen.Sublist parts
  apart : chosen.Pairwise fun a b => agree a b = false
  covers : ∀ a ∈ parts, ∃ c ∈ chosen, agree c a = true

namespace StandFor

variable {α : Type} {agree : α → α → Bool} {parts chosen : List α}

/-- No parts have no classes. -/
theorem nil : StandFor agree [] [] where
  among := .slnil
  apart := .nil
  covers := by simp

/-- One more part that agrees with one that was chosen. -/
theorem known (standing : StandFor agree parts chosen) {a c : α} (member : c ∈ chosen)
    (agrees : agree c a = true) :
    StandFor agree (parts ++ [a]) chosen where
  among := standing.among.trans (List.sublist_append_left parts [a])
  apart := standing.apart
  covers := by
    intro b inParts
    rcases List.mem_append.mp inParts with old | last
    · exact standing.covers b old
    · obtain rfl := List.mem_singleton.mp last
      exact ⟨c, member, agrees⟩

/-- One more part that agrees with none that was chosen is chosen itself. -/
theorem new (standing : StandFor agree parts chosen) {a : α} (self : agree a a = true)
    (differs : ∀ c ∈ chosen, agree c a = false) :
    StandFor agree (parts ++ [a]) (chosen ++ [a]) where
  among := standing.among.append (.refl [a])
  apart := by
    apply List.pairwise_append.mpr
    refine ⟨standing.apart, List.pairwise_singleton _ a, ?_⟩
    intro c member b last
    obtain rfl := List.mem_singleton.mp last
    exact differs c member
  covers := by
    intro b inParts
    rcases List.mem_append.mp inParts with old | last
    · obtain ⟨c, member, agrees⟩ := standing.covers b old
      exact ⟨c, List.mem_append_left [a] member, agrees⟩
    · obtain rfl := List.mem_singleton.mp last
      exact ⟨b, List.mem_append_right chosen last, self⟩

/-- Of two choices none is longer: the parts of one are answered by different parts
of the other. -/
theorem length_le (agreement : IsAgreement agree) {first second : List α}
    (isFirst : StandFor agree parts first)
    (isSecond : StandFor agree parts second) : first.length ≤ second.length := by
  have answered : ∀ a, ∃ c, a ∈ first → c ∈ second ∧ agree c a = true := by
    intro a
    by_cases member : a ∈ first
    · obtain ⟨c, inSecond, agrees⟩ := isSecond.covers a (isFirst.among.subset member)
      exact ⟨c, fun _ => ⟨inSecond, agrees⟩⟩
    · exact ⟨a, fun there => absurd there member⟩
  choose answer answers using answered
  have distinct : (first.map answer).Nodup := by
    apply List.pairwise_map.mpr
    refine isFirst.apart.imp_of_mem ?_
    intro a b inFirst inFirst' differ same
    have agrees := agreement.symm (answers a inFirst).2
    rw [same] at agrees
    exact Bool.false_ne_true (differ.symm.trans
      (agreement.trans agrees (answers b inFirst').2))
  have within : first.map answer ⊆ second := by
    intro c member
    obtain ⟨a, inFirst, rfl⟩ := List.mem_map.mp member
    exact (answers a inFirst).1
  have fewer := (List.subperm_of_subset distinct within).length_le
  rwa [List.length_map] at fewer

/-- However they are chosen, there are equally many. -/
theorem length_eq (agreement : IsAgreement agree) {first second : List α}
    (isFirst : StandFor agree parts first)
    (isSecond : StandFor agree parts second) : first.length = second.length :=
  Nat.le_antisymm (length_le agreement isFirst isSecond) (length_le agreement isSecond isFirst)

end StandFor

namespace Check

/-- The effects of the rules with this trigger. -/
def effectsOf (rules : List EvolutionRule) (trigger : Option Trigger) : List (Option Effect) :=
  (rules.filter fun r => sameTrigger trigger r.trigger).map EvolutionRule.effect

/-- The groups have one trigger of each class, with one of each of its
different effects. -/
structure Classified (rules : List EvolutionRule) (groups : List Group) : Prop where
  triggers : StandFor sameTrigger (rules.map EvolutionRule.trigger) (groups.map Group.trigger)
  effects : ∀ g ∈ groups, StandFor sameEffect (effectsOf rules g.trigger) g.effects

/-- One more rule with this trigger. -/
theorem effectsOf_same {rules : List EvolutionRule} {r : EvolutionRule}
    {trigger : Option Trigger} (agrees : sameTrigger trigger r.trigger = true) :
    effectsOf (rules ++ [r]) trigger = effectsOf rules trigger ++ [r.effect] := by
  simp [effectsOf, agrees]

/-- One more rule with another trigger. -/
theorem effectsOf_other {rules : List EvolutionRule} {r : EvolutionRule}
    {trigger : Option Trigger} (differs : sameTrigger trigger r.trigger = false) :
    effectsOf (rules ++ [r]) trigger = effectsOf rules trigger := by
  simp [effectsOf, differs]

/-- An effect is added to the different effects of its class. -/
theorem Group.add_standFor {rules : List EvolutionRule} {g : Group} {r : EvolutionRule}
    (standing : StandFor sameEffect (effectsOf rules g.trigger) g.effects)
    (agrees : sameTrigger g.trigger r.trigger = true)
    (self : sameEffect r.effect r.effect = true) :
    (g.add r.effect).trigger = g.trigger ∧
      StandFor sameEffect (effectsOf (rules ++ [r]) g.trigger) (g.add r.effect).effects := by
  rw [effectsOf_same agrees]
  rcases g.add_cases r.effect with ⟨⟨other, member, same⟩, unchanged⟩ | ⟨differs, effects⟩
  · rw [unchanged]
    exact ⟨rfl, standing.known member same⟩
  · constructor
    · unfold Group.add
      split <;> rfl
    · rw [effects]
      exact standing.new self differs

/-- The trigger of any other group differs from that of this one, and so from that
of its rules. -/
theorem Classified.apart {rules : List EvolutionRule} {before after : List Group} {g : Group}
    (classified : Classified rules (before ++ g :: after)) {trigger : Option Trigger}
    (agrees : sameTrigger g.trigger trigger = true) :
    ∀ h ∈ before ++ after, sameTrigger h.trigger trigger = false := by
  have triggers := Trigger.isAgreement_agrees.optional
  intro h member
  apply Bool.eq_false_iff.mpr
  intro same
  have toGroup := triggers.trans same (triggers.symm agrees)
  have pairwise := List.pairwise_map.mp classified.triggers.apart
  rw [List.pairwise_append] at pairwise
  obtain ⟨-, behind, infront⟩ := pairwise
  rcases List.mem_append.mp member with inBefore | inAfter
  · have differs := infront h inBefore g List.mem_cons_self
    exact Bool.false_ne_true (differs.symm.trans toGroup)
  · have differs := List.rel_of_pairwise_cons behind inAfter
    exact Bool.false_ne_true (differs.symm.trans (triggers.symm toGroup))

/-- A rule with a trigger has a group with this trigger, so where there is no group there
is no effect. -/
theorem Classified.effectsOf_nil {rules : List EvolutionRule} {gs : List Group}
    (classified : Classified rules gs)
    {trigger : Option Trigger} (differ : ∀ g ∈ gs, sameTrigger g.trigger trigger = false) :
    effectsOf rules trigger = [] := by
  have triggers := Trigger.isAgreement_agrees.optional
  rw [effectsOf, List.map_eq_nil_iff, List.filter_eq_nil_iff]
  intro a inRules same
  obtain ⟨_, covering, agrees⟩ :=
    classified.triggers.covers a.trigger (List.mem_map_of_mem inRules)
  obtain ⟨g, inGroups, rfl⟩ := List.mem_map.mp covering
  have toRule := triggers.trans agrees (triggers.symm same)
  exact Bool.false_ne_true ((differ g inGroups).symm.trans toRule)

/-- One more rule is added to the groups of those before it. -/
theorem Classified.add {rules : List EvolutionRule} {gs : List Group}
    (classified : Classified rules gs)
    {r : EvolutionRule} (selfTrigger : sameTrigger r.trigger r.trigger = true)
    (selfEffect : sameEffect r.effect r.effect = true) :
    Classified (rules ++ [r]) (addToGroups r gs) := by
  have byTrigger := classified.triggers
  have byEffect := classified.effects
  rcases addToGroups_cases r gs with ⟨before, g, after, rfl, agrees, added⟩ | ⟨differ, added⟩
  case inl =>
    obtain ⟨sameHead, effects⟩ := Group.add_standFor (byEffect g (by simp)) agrees selfEffect
    rw [added]
    constructor
    · have grown := byTrigger.known (List.mem_map_of_mem (by simp)) agrees
      simpa [sameHead] using grown
    · intro h member
      by_cases isNew : h = g.add r.effect
      · rw [isNew, sameHead]
        exact effects
      · have old : h ∈ before ++ after := by
          simp only [List.mem_append, List.mem_cons, isNew, false_or] at member ⊢
          exact member
        rw [effectsOf_other (classified.apart agrees h old)]
        apply byEffect
        simp only [List.mem_append, List.mem_cons] at old ⊢
        exact old.imp id .inr
  case inr =>
    rw [added]
    constructor
    · have grown := byTrigger.new selfTrigger (by simpa using differ)
      simpa using grown
    · intro h member
      rcases List.mem_append.mp member with old | last
      · rw [effectsOf_other (differ h old)]
        exact byEffect h old
      · obtain rfl := List.mem_singleton.mp last
        rw [effectsOf_same selfTrigger, classified.effectsOf_nil differ]
        exact StandFor.nil.new selfEffect (by simp)

/-- Rules without a NaN are grouped by their classes. -/
theorem groups_classified {rules : List EvolutionRule}
    (free : ∀ r ∈ rules, ∀ n ∈ r.numbers, n ≠ .nan) :
    Classified rules (groups rules) := by
  -- Rules are added to the groups one by one, so the list grows at its end.
  induction rules using List.reverseRecOn with
  | nil => exact ⟨.nil, by simp [groups]⟩
  | append_singleton rules r inductionHypothesis =>
    have grown : groups (rules ++ [r]) = addToGroups r (groups rules) := by simp [groups]
    obtain ⟨before, last⟩ := List.forall_mem_append.mp free
    obtain ⟨inTrigger, inEffect⟩ :=
      List.forall_mem_append.mp (last r (List.mem_singleton_self r))
    rw [grown]
    apply (inductionHypothesis before).add
    · exact agreeing_self Trigger.agrees_self r.trigger inTrigger
    · exact agreeing_self Effect.agrees_self r.effect inEffect

/-- Of each class of triggers with several different effects one problem is reported, with
the number of these effects. -/
theorem determinism_eq {p : Personality}
    (free : ∀ r ∈ p.evolution, ∀ n ∈ r.numbers, n ≠ .nan) :
    ∃ classes, Classified p.evolution classes ∧
      (∀ c ∈ classes, ∀ chosen, StandFor sameEffect (effectsOf p.evolution c.trigger) chosen →
        chosen.length = c.effects.length) ∧
      determinism p = (classes.filter fun c => 1 < c.effects.length).map fun c =>
        .undetermined c.trigger c.effects.length := by
  have classified := groups_classified free
  refine ⟨groups p.evolution, classified, ?_, ?_⟩
  · intro c member chosen standing
    exact standing.length_eq Effect.isAgreement_agrees.optional (classified.effects c member)
  · rw [determinism, ← List.filterMap_eq_map, ← List.filterMap_eq_filter,
      List.filterMap_filterMap]
    congr 1
    funext c
    by_cases several : 1 < c.effects.length
    · simp [several, Option.guard]
    · simp [several, Option.guard]

end Check

end Persona
