import Mathlib.Data.List.Induction
import Persona.Proofs.Simplify.Trimming

/-!
# The order of passes does not matter

The passes can be run in any order and as often as one likes. What they make of a
personality depends only on which of the three that change anything were among them:
folding looks at modifiers alone, whether a rule is dead depends on names that no pass
touches, and since rules of one priority keep their order, it makes no difference
whether rules are dropped before or after the others are put in the order of firing.

So a second simplification changes nothing. It also counts nothing, as long as there
is no NaN: a rule with a NaN does not agree with itself and counts as moved where it
stands.
-/

namespace Persona

namespace Simplify

/-- The rules have the priorities in order. -/
def InOrder (rules : List EvolutionRule) : Prop := rules.Pairwise fun a b =>
    priority a.trigger ≤ priority b.trigger

/-- The rules of one priority. -/
def ofPriority (level : Nat) (rules : List EvolutionRule) : List EvolutionRule :=
  rules.filter fun r => priority r.trigger = level

variable {rules others : List EvolutionRule}

/-- To fire no later is transitive. -/
theorem fires_trans (a b c : EvolutionRule)
    (first : decide (priority a.trigger ≤ priority b.trigger) = true)
    (second : decide (priority b.trigger ≤ priority c.trigger) = true) :
    decide (priority a.trigger ≤ priority c.trigger) = true := by
  simp only [decide_eq_true_eq] at first second ⊢
  exact Nat.le_trans first second

/-- Of two rules one fires no later than the other. -/
theorem fires_total (a b : EvolutionRule) :
    (decide (priority a.trigger ≤ priority b.trigger) ||
      decide (priority b.trigger ≤ priority a.trigger)) = true := by
  simpa using Nat.le_total (priority a.trigger) (priority b.trigger)

/-- The order of firing has the priorities in order. -/
theorem inOrder_inFiringOrder (rules : List EvolutionRule) :
    InOrder (inFiringOrder rules) := by
  have ordered := List.pairwise_mergeSort fires_trans fires_total rules
  exact ordered.imp fun before => by simpa using before

/-- Rules that are in order stay as they are. -/
theorem inFiringOrder_of_inOrder (ordered : InOrder rules) : inFiringOrder rules = rules := by
  apply List.mergeSort_of_pairwise
  simpa only [InOrder, decide_eq_true_eq] using ordered

/-- The rules of one priority keep their order: they are in order already, and
none is lost. -/
theorem ofPriority_inFiringOrder (level : Nat) (rules : List EvolutionRule) :
    ofPriority level (inFiringOrder rules) = ofPriority level rules := by
  have alike : (ofPriority level rules).Pairwise fun a b =>
      decide (priority a.trigger ≤ priority b.trigger) = true := by
    refine List.pairwise_of_forall_mem_list fun a member b member' => ?_
    have first : priority a.trigger = level := by simpa using (List.mem_filter.mp member).2
    have second : priority b.trigger = level := by simpa using (List.mem_filter.mp member').2
    simp [first, second]
  have kept : (ofPriority level rules).Sublist (inFiringOrder rules) :=
    List.sublist_mergeSort fires_trans fires_total alike List.filter_sublist
  have among : (ofPriority level rules).Sublist (ofPriority level (inFiringOrder rules)) := by
    simpa [ofPriority] using kept.filter fun r => priority r.trigger = level
  have asMany : (ofPriority level (inFiringOrder rules)).length =
      (ofPriority level rules).length :=
    ((List.mergeSort_perm rules _).filter _).length_eq
  exact (among.eq_of_length asMany.symm).symm

/-- The first of rules that are in order has the lowest priority. -/
theorem InOrder.head_le {a b : EvolutionRule} (ordered : InOrder (a :: rules))
    (member : b ∈ a :: rules) :
    priority a.trigger ≤ priority b.trigger := by
  rcases List.mem_cons.mp member with rfl | later
  · exact Nat.le_refl _
  · exact (List.pairwise_cons.mp ordered).1 b later

/-- Lists with the same rules of each priority have the same rules. -/
theorem mem_iff_of_ofPriority
    (same : ∀ level, ofPriority level rules = ofPriority level others)
    (r : EvolutionRule) : r ∈ rules ↔ r ∈ others := by
  simpa [ofPriority] using congrArg (r ∈ ·) (same (priority r.trigger))

/-- Rules that are in order are known from the rules of each priority. -/
theorem InOrder.eq_of_ofPriority (ordered : InOrder rules) (ordered' : InOrder others)
    (same : ∀ level, ofPriority level rules = ofPriority level others) : rules = others := by
  induction rules generalizing others with
  | nil =>
    cases others with
    | nil => rfl
    | cons b others => simpa using (mem_iff_of_ofPriority same b).mpr List.mem_cons_self
  | cons a rules inductionHypothesis =>
    cases others with
    | nil => simpa using (mem_iff_of_ofPriority same a).mp List.mem_cons_self
    | cons b others =>
      have among := mem_iff_of_ofPriority same
      -- Each head is somewhere in the other list, so neither has the higher priority.
      have heads : priority a.trigger = priority b.trigger :=
        Nat.le_antisymm (ordered.head_le ((among b).mpr List.mem_cons_self))
          (ordered'.head_le ((among a).mp List.mem_cons_self))
      have equal : a = b ∧ ofPriority (priority a.trigger) rules =
          ofPriority (priority a.trigger) others := by
        simpa [ofPriority, heads] using same (priority a.trigger)
      obtain ⟨rfl, -⟩ := equal
      have tails (level : Nat) : ofPriority level rules = ofPriority level others := by
        have whole := same level
        by_cases here : priority a.trigger = level <;> simpa [ofPriority, here] using whole
      rw [inductionHypothesis (List.pairwise_cons.mp ordered).2
        (List.pairwise_cons.mp ordered').2 tails]

/-- Whether rules are dropped before the others are put in order or afterwards makes no
difference. -/
theorem filter_inFiringOrder (keep : EvolutionRule → Bool) (rules : List EvolutionRule) :
    (inFiringOrder rules).filter keep = inFiringOrder (rules.filter keep) := by
  apply InOrder.eq_of_ofPriority
  · exact (inOrder_inFiringOrder rules).sublist List.filter_sublist
  · exact inOrder_inFiringOrder _
  · intro level
    have commute (rs : List EvolutionRule) : ofPriority level (rs.filter keep) =
        (ofPriority level rs).filter keep := by
      rw [ofPriority, ofPriority, List.filter_comm]
    rw [ofPriority_inFiringOrder, commute, commute, ofPriority_inFiringOrder]

/-- The passes by name. -/
inductive Step where
  | fold | dropDead | hint | countCommon | reorder
deriving DecidableEq

/-- The pass of that name. -/
def Step.pass : Step → Pass
  | .fold => Simplify.fold
  | .dropDead => Simplify.dropDead
  | .hint => Simplify.hint
  | .countCommon => Simplify.countCommon
  | .reorder => Simplify.reorder

/-- The passes of a degree by name. -/
def Step.ofDegree : Degree → List Step
  | .none => []
  | .basic => [.fold, .dropDead, .hint]
  | .aggressive => [.fold, .dropDead, .hint, .countCommon, .reorder]

/-- Run passes one after the other, each on what the one before it made. -/
def runSteps (steps : List Step) (start : Personality × Stats) : Personality × Stats :=
  steps.foldl (fun state step => step.pass state.1 state.2) start

/-- What passes make of a personality, said without their order: each change is made if
its pass is among them. -/
def outcome (steps : List Step) (p : Personality) : Personality :=
  let live := if .dropDead ∈ steps then p.evolution.filter fun r =>
    !isDead p r else p.evolution
  { p with
    traits := if .fold ∈ steps then p.traits.map foldTrait else p.traits
    evolution := if .reorder ∈ steps then inFiringOrder live else live }

variable {p q : Personality} {steps : List Step}

/-- Every degree runs passes that have a name. -/
theorem runSteps_ofDegree (p : Personality) (degree : Degree) :
    runSteps (Step.ofDegree degree) (p, { degree := degree }) = p.simplify degree := by
  cases degree <;> rfl

/-- One more pass is run last. -/
theorem runSteps_concat (steps : List Step) (step : Step) (start : Personality × Stats) :
    runSteps (steps ++ [step]) start =
      step.pass (runSteps steps start).1 (runSteps steps start).2 := by
  simp [runSteps]

/-- A sequence of passes only takes away. -/
theorem trims_runSteps (steps : List Step) (start : Personality × Stats) :
    start.1.Trims (runSteps steps start).1 := by
  have named (step : Step) : step.pass ∈ passes .aggressive := by
    cases step <;> simp [passes, Step.pass]
  induction steps using List.reverseRecOn with
  | nil => exact Personality.Trims.refl start.1
  | append_singleton steps step inductionHypothesis =>
    rw [runSteps_concat]
    exact inductionHypothesis.trans (pass_trims (named step) _ _)

/-- The same rules are dead: that depends on names alone. -/
theorem isDead_eq_of_trims (trims : p.Trims q) : isDead q = isDead p := by
  funext r
  rw [isDead, isDead, trims.hasTrait, trims.hasDomain]

/-- A folded trait has nothing to fold. -/
theorem foldTrait_foldTrait (t : Trait) : foldTrait (foldTrait t) = foldTrait t := by
  simp [foldTrait]

/-- One pass more makes its own change, whatever the passes before it have made. -/
theorem pass_outcome (made : q = outcome steps p) (sameDead : isDead q = isDead p)
    (step : Step) (stats : Stats) :
    (step.pass q stats).1 = outcome (steps ++ [step]) p := by
  subst made
  cases step with
  | fold =>
    by_cases before : Step.fold ∈ steps <;>
      simp [Step.pass, Simplify.fold, outcome, before, Function.comp_def, foldTrait_foldTrait]
  | dropDead =>
    rw [Step.pass, Simplify.dropDead, sameDead]
    by_cases before : Step.dropDead ∈ steps <;> by_cases ordered : Step.reorder ∈ steps <;>
      simp [outcome, before, ordered, filter_inFiringOrder]
  | hint => simp [Step.pass, Simplify.hint, outcome]
  | countCommon => simp [Step.pass, Simplify.countCommon, outcome]
  | reorder =>
    by_cases before : Step.reorder ∈ steps <;>
      simp [Step.pass, Simplify.reorder, outcome, before, inFiringOrder_of_inOrder,
        inOrder_inFiringOrder]

/-- What a sequence of passes makes of a personality. -/
theorem runSteps_eq_outcome (steps : List Step) (start : Personality × Stats) :
    (runSteps steps start).1 = outcome steps start.1 := by
  -- The last pass is run on what the others have made, so the sequence is taken apart at
  -- its end.
  induction steps using List.reverseRecOn with
  | nil => simp [runSteps, outcome]
  | append_singleton steps step inductionHypothesis =>
    rw [runSteps_concat]
    exact pass_outcome inductionHypothesis (isDead_eq_of_trims (trims_runSteps steps start))
      step _

/-- Rules that agree fire at the same time. -/
theorem priority_eq_of_agrees {a b : EvolutionRule} (agree : a.agrees b = true) :
    priority a.trigger = priority b.trigger := by
  have triggers : agreeing Trigger.agrees a.trigger b.trigger = true := by
    simp only [EvolutionRule.agrees, Bool.and_eq_true] at agree
    exact agree.1
  cases first : a.trigger with
  | none =>
    cases second : b.trigger with
    | none => rfl
    | some u => simp [first, second, agreeing] at triggers
  | some t =>
    cases second : b.trigger with
    | none => simp [first, second, agreeing] at triggers
    | some u =>
      rw [first, second] at triggers
      rcases Trigger.agrees_cases triggers with rfl | ⟨x, y, rfl, rfl, -⟩
      · rfl
      · rfl

/-- Where no rule has moved, the rules were in order: the priorities at each place are
those of the sorted rules. -/
theorem inOrder_of_moved_eq_zero (unmoved : moved rules (inFiringOrder rules) = 0) :
    InOrder rules := by
  have agree : ∀ pair ∈ rules.zip (inFiringOrder rules), pair.1.agrees pair.2 = true := by
    simpa [moved, List.countP_eq_zero] using unmoved
  have samePriorities : rules.map (fun r => priority r.trigger) =
      (inFiringOrder rules).map fun r => priority r.trigger := by
    rw [← List.forall₂_eq_eq_eq, List.forall₂_map_left_iff, List.forall₂_map_right_iff,
      List.forall₂_iff_zip]
    exact ⟨(List.mergeSort_perm rules _).length_eq.symm, fun member =>
      priority_eq_of_agrees (agree _ member)⟩
  have ordered := List.pairwise_map.mpr (inOrder_inFiringOrder rules)
  rw [← samePriorities] at ordered
  exact List.pairwise_map.mp ordered

/-- No idle modifier is counted exactly when there is none. -/
theorem idleCount_eq_zero_iff (p : Personality) :
    idleCount p = 0 ↔ ∀ t ∈ p.traits, ∀ m ∈ t.modifiers, isIdle m = false := by
  rw [idleCount]
  induction p.traits with
  | nil => simp
  | cons t traits inductionHypothesis =>
    rw [List.foldr_cons, Nat.add_eq_zero_iff, inductionHypothesis, List.forall_mem_cons,
      List.countP_eq_zero]
    simp

/-- Folding leaves a personality without idle modifiers as it is, and counts nothing. -/
theorem fold_of_active (active : ∀ t ∈ p.traits, ∀ m ∈ t.modifiers, isIdle m = false)
    (stats : Stats) :
    fold p stats = (p, stats) := by
  have unfolded (t : Trait) (member : t ∈ p.traits) : foldTrait t = t := by
    have kept : t.modifiers.filter (fun m => !isIdle m) = t.modifiers := by
      rw [List.filter_eq_self]
      intro m inTrait
      rw [active t member m inTrait]
      rfl
    rw [foldTrait, kept]
  have traits : p.traits.map foldTrait = p.traits := by
    rw [List.map_congr_left unfolded, List.map_id']
  simp [fold, traits, (idleCount_eq_zero_iff p).mpr active]

/-- Dropping dead rules leaves a personality without them as it is, and counts nothing. -/
theorem dropDead_of_live (live : ∀ r ∈ p.evolution, isDead p r = false) (stats : Stats) :
    dropDead p stats = (p, stats) := by
  have rules : p.evolution.filter (fun r => !isDead p r) = p.evolution := by
    rw [List.filter_eq_self]
    intro r member
    rw [live r member]
    rfl
  have none : p.evolution.countP (isDead p) = 0 := by
    rw [List.countP_eq_zero]
    intro r member
    rw [live r member]
    exact Bool.false_ne_true
  simp [dropDead, rules, none]

/-- Rules that agree with themselves have not moved from where they stand. -/
theorem moved_self (agree : ∀ r ∈ rules, r.agrees r = true) : moved rules rules = 0 := by
  rw [moved, List.zip, List.zipWith_self, List.countP_eq_zero]
  simpa using agree

/-- Reordering leaves a personality whose rules are in order as it is, and counts nothing
if the rules agree with themselves. -/
theorem reorder_of_inOrder (ordered : InOrder p.evolution)
    (agree : ∀ r ∈ p.evolution, r.agrees r = true)
    (stats : Stats) : reorder p stats = (p, stats) := by
  simp [reorder, inFiringOrder_of_inOrder ordered, moved_self agree]

/-- A pass that has counted no change has made none. -/
theorem pass_of_uncounted (step : Step) (stats : Stats)
    (folded : (step.pass p stats).2.folded = stats.folded)
    (dead : (step.pass p stats).2.dead = stats.dead)
    (reordered : (step.pass p stats).2.reordered = stats.reordered) :
    (step.pass p stats).1 = p := by
  cases step with
  | fold =>
    have active := (idleCount_eq_zero_iff p).mp
      (by simpa [Step.pass, Simplify.fold] using folded)
    rw [Step.pass, fold_of_active active]
  | dropDead =>
    have live : ∀ r ∈ p.evolution, isDead p r = false := by
      simpa [Step.pass, Simplify.dropDead, List.countP_eq_zero] using dead
    rw [Step.pass, dropDead_of_live live]
  | hint => rfl
  | countCommon => rfl
  | reorder =>
    have unmoved : moved p.evolution (inFiringOrder p.evolution) = 0 := by
      simpa [Step.pass, Simplify.reorder] using reordered
    simp [Step.pass, Simplify.reorder,
      inFiringOrder_of_inOrder (inOrder_of_moved_eq_zero unmoved)]

/-- Sequences with the same changes among them have the same outcome. -/
theorem outcome_congr {first second : List Step} (p : Personality)
    (same : ∀ step ∈ [Step.fold, .dropDead, .reorder], step ∈ first ↔ step ∈ second) :
    outcome first p = outcome second p := by
  simp only [List.forall_mem_cons] at same
  obtain ⟨fold, dropDead, reorder, -⟩ := same
  simp only [outcome, fold, dropDead, reorder]

/-- Passes that are run on an outcome have the outcome of both sequences. -/
theorem outcome_outcome (first second : List Step) (p : Personality) :
    outcome second (outcome first p) = outcome (first ++ second) p := by
  have start : Stats := { degree := .none }
  have both : runSteps (first ++ second) (p, start) =
      runSteps second (runSteps first (p, start)) := by
    simp [runSteps]
  rw [← runSteps_eq_outcome (first ++ second) (p, start), both, runSteps_eq_outcome,
    runSteps_eq_outcome]

/-- Simplification has the outcome of its passes. -/
theorem simplify_eq_outcome (p : Personality) (degree : Degree) :
    (p.simplify degree).1 = outcome (Step.ofDegree degree) p := by
  rw [← runSteps_ofDegree, runSteps_eq_outcome]

/-- Nothing idle is left after folding. -/
theorem active_outcome (folded : .fold ∈ steps) :
    ∀ t ∈ (outcome steps p).traits, ∀ m ∈ t.modifiers, isIdle m = false := by
  simp [outcome, folded, foldTrait]

/-- No dead rule is left after dropping them. -/
theorem live_outcome (dropped : .dropDead ∈ steps) :
    ∀ r ∈ (outcome steps p).evolution, isDead (outcome steps p) r = false := by
  have start : Stats := { degree := .none }
  have sameDead : isDead (outcome steps p) = isDead p := by
    rw [← runSteps_eq_outcome steps (p, start)]
    exact isDead_eq_of_trims (trims_runSteps steps (p, start))
  rw [sameDead]
  intro r member
  by_cases ordered : Step.reorder ∈ steps
  · have among : r ∈ inFiringOrder (p.evolution.filter fun r => !isDead p r) := by
      simpa [outcome, dropped, ordered] using member
    simpa using (List.mem_filter.mp ((List.mergeSort_perm _ _).mem_iff.mp among)).2
  · have among : r ∈ p.evolution.filter fun r => !isDead p r := by
      simpa [outcome, dropped, ordered] using member
    simpa using (List.mem_filter.mp among).2

/-- The rules are in order after reordering. -/
theorem inOrder_outcome (reordered : .reorder ∈ steps) :
    InOrder (outcome steps p).evolution := by
  simpa [outcome, reordered] using inOrder_inFiringOrder _

/-- A personality that is as a second run finds it: nothing is left to fold or to drop. -/
structure Settled (p : Personality) : Prop where
  active : ∀ t ∈ p.traits, ∀ m ∈ t.modifiers, isIdle m = false
  live : ∀ r ∈ p.evolution, isDead p r = false

/-- Folding and dropping settle a personality. -/
theorem settled_outcome (folded : .fold ∈ steps) (dropped : .dropDead ∈ steps) :
    Settled (outcome steps p) :=
  ⟨active_outcome folded, live_outcome dropped⟩

/-- The basic passes only look for hints in a settled personality. -/
theorem Settled.simplify_basic (settled : Settled p) :
    p.simplify .basic = hint p { degree := .basic } := by
  simp [Personality.simplify, passes, fold_of_active settled.active,
    dropDead_of_live settled.live]

/-- The aggressive passes only look for hints and for common modifiers in a settled
personality whose rules are in order. -/
theorem Settled.simplify_aggressive (settled : Settled p) (ordered : InOrder p.evolution)
    (agree : ∀ r ∈ p.evolution, r.agrees r = true) :
    p.simplify .aggressive = countCommon p (hint p { degree := .aggressive }).2 := by
  simp [Personality.simplify, passes, fold_of_active settled.active,
    dropDead_of_live settled.live, hint, countCommon, reorder_of_inOrder ordered agree]

/-- A second run of the same degree counts nothing if no rule holds a NaN; it finds the
same hints and as many common modifiers as the first. -/
theorem simplify_simplified (p : Personality) (degree : Degree)
    (agree : ∀ r ∈ p.evolution, r.agrees r = true) :
    ((p.simplify degree).1.simplify degree).2 =
      { degree := degree, hints := (p.simplify degree).2.hints,
        common := (p.simplify degree).2.common } := by
  have made := simplify_eq_outcome p degree
  cases degree with
  | none => rfl
  | basic =>
    have settled : Settled (p.simplify .basic).1 :=
      made ▸ settled_outcome (by decide) (by decide)
    rw [settled.simplify_basic]
    rfl
  | aggressive =>
    have settled : Settled (p.simplify .aggressive).1 :=
      made ▸ settled_outcome (by decide) (by decide)
    have ordered : InOrder (p.simplify .aggressive).1.evolution :=
      made ▸ inOrder_outcome (by decide)
    have still : ∀ r ∈ (p.simplify .aggressive).1.evolution, r.agrees r = true := by
      intro r member
      exact agree r ((p.trims_simplify .aggressive).evolution.subset member)
    rw [settled.simplify_aggressive ordered still]
    rfl

end Simplify

open Simplify

/-- Passes commute and settle. What a sequence of passes makes of a personality depends
only on which of folding, dropping and reordering are in it, and where all three are, it
is what the highest degree makes of it. So simplifying twice is simplifying once, at every
degree; and if there is no NaN, the second run folds, drops and moves nothing and finds
the same hints and as many common modifiers. A pass that counts no change has made none,
so that it makes no difference whether it then returns what it was given. -/
theorem Personality.simplify_confluent (p : Personality) :
    (∀ (first second : List Step) (stats stats' : Stats),
      (∀ step ∈ [Step.fold, .dropDead, .reorder], step ∈ first ↔ step ∈ second) →
      (runSteps first (p, stats)).1 = (runSteps second (p, stats')).1) ∧
    (∀ (steps : List Step) (stats : Stats), [Step.fold, .dropDead, .reorder] ⊆ steps →
      (runSteps steps (p, stats)).1 = (p.simplify .aggressive).1) ∧
    (∀ degree, ((p.simplify degree).1.simplify degree).1 = (p.simplify degree).1) ∧
    ((∀ x ∈ p.numbers, x ≠ .nan) → ∀ degree, ((p.simplify degree).1.simplify degree).2 =
      { degree := degree, folded := 0, dead := 0, hints := (p.simplify degree).2.hints
        common := (p.simplify degree).2.common, reordered := 0 }) ∧
    (∀ (step : Step) (stats : Stats), (step.pass p stats).2.folded = stats.folded →
      (step.pass p stats).2.dead = stats.dead →
        (step.pass p stats).2.reordered = stats.reordered →
      (step.pass p stats).1 = p) := by
  refine ⟨?_, ?_, ?_, ?_, ?_⟩
  · intro first second stats stats' same
    rw [runSteps_eq_outcome, runSteps_eq_outcome, outcome_congr p same]
  · intro steps stats all
    rw [runSteps_eq_outcome, simplify_eq_outcome]
    refine outcome_congr p fun step member => iff_of_true (all member) ?_
    revert step
    decide
  · intro degree
    rw [simplify_eq_outcome _ degree, simplify_eq_outcome p degree, outcome_outcome]
    exact outcome_congr p fun step _ => by simp
  · intro free degree
    refine simplify_simplified p degree fun r member => r.agrees_self fun x inRule => free x ?_
    simp only [numbers, List.mem_append, List.mem_flatMap]
    exact .inr (.inr (.inr ⟨r, member, inRule⟩))
  · intro step stats folded dead reordered
    exact pass_of_uncounted step stats folded dead reordered

/-- A personality with something for each pass: an amplification by one, a rule on an
unknown trait, and a rule that should fire before the one in front of it. -/
def Personality.restless : Personality where
  name := "restless"
  traits := [
    { name := "calm", strength := .ofRatio false 1 4
      modifiers := [some (.amplifies "calm" (.ofRatio false 1 1)),
        some (.decay (.ofRatio false 1 10) .day),
        some (.decay (.ofRatio false 1 10) .day)] }]
  knowledge := []
  behaviors := []
  evolution := [⟨some (.interactions 5), some (.adjust "calm" (.ofRatio false 1 4))⟩,
    ⟨some (.feedback (.ofRatio false 1 2)), some (.adjust "joy" (.ofRatio false 1 2))⟩,
    ⟨some (.learns "tea"), some (.adjust "calm" (.ofRatio false 1 2))⟩]

/-- All passes in another order, one of them twice, make of it what the highest degree
does, and after that there is nothing left to count. -/
theorem Personality.simplify_confluent_restless :
    (∀ x ∈ restless.numbers, x ≠ .nan) ∧
    (restless.simplify .aggressive).1.evolution =
      [⟨some (.learns "tea"), some (.adjust "calm" (.ofRatio false 1 2))⟩,
       ⟨some (.interactions 5), some (.adjust "calm" (.ofRatio false 1 4))⟩] ∧
    (runSteps [.reorder, .hint, .dropDead, .reorder, .fold] (restless,
      { degree := .none })).1 =
      (restless.simplify .aggressive).1 ∧
    ((restless.simplify .aggressive).1.simplify .aggressive).2 =
      { degree := .aggressive, folded := 0, dead := 0, hints := ["calm"], common := 1,
        reordered := 0 } := by
  have free : ∀ x ∈ restless.numbers, x ≠ .nan := by decide +kernel
  have live : restless.evolution.filter (fun r => !isDead restless r) =
      [⟨some (.interactions 5), some (.adjust "calm" (.ofRatio false 1 4))⟩,
       ⟨some (.learns "tea"), some (.adjust "calm" (.ofRatio false 1 2))⟩] := by decide +kernel
  have hints : (restless.simplify .aggressive).2.hints = [("calm" : Text)] := by decide +kernel
  have common : (restless.simplify .aggressive).2.common = 1 := by decide +kernel
  obtain ⟨-, all, -, second, -⟩ := simplify_confluent restless
  refine ⟨free, ?_, all _ _ (by decide), ?_⟩
  · have made : (restless.simplify .aggressive).1.evolution =
        inFiringOrder (restless.evolution.filter fun r => !isDead restless r) := rfl
    rw [made, live]
    simp [inFiringOrder, List.mergeSort, priority]
  · rw [second free .aggressive, hints, common]

end Persona
