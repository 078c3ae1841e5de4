import Persona.Proofs.Simplify.Confluence
import Persona.Proofs.Simplify.Salvage

/-!
# What simplification does and what it counts

The result of a simplification is known exactly: every trait is left with the modifiers
that are not idle, in their order, and the rules that are left are those that are live;
only the highest degree puts them in the order of firing, and rules that fire at the same
time stay in their order. Name, knowledge and behaviors are not touched.

The counts are exact as well. Folding and dropping count what is missing afterwards. A
modifier that occurs more than once is counted when it is met for the second time, so
there is one count for each class of modifiers that agree. Rules are counted as moved
where the rules before and after do not agree; as long as there is no NaN the counts are
all zero exactly when nothing has changed.
-/

namespace Persona

/-- Modifiers agree when they are equal or differ only in a number that is the same. -/
theorem Modifier.agrees_cases {a b : Modifier} (agree : a.agrees b = true) :
    a = b ∨ (∃ x y unit, a = .decay x unit ∧ b = .decay y unit ∧ x.same y = true) ∨
      (∃ target x y, a = .amplifies target x ∧ b = .amplifies target y ∧ x.same y = true) ∨
      ∃ target x y count, a = .transformsTo target x count ∧
        b = .transformsTo target y count ∧ x.same y = true := by
  cases a <;> cases b <;> simp_all [Modifier.agrees]

/-- Agreement of modifiers. -/
theorem Modifier.isAgreement_agrees : IsAgreement Modifier.agrees where
  symm := by
    intro a b agree
    rcases agrees_cases agree with rfl | ⟨x, y, unit, rfl, rfl, same⟩ |
        ⟨target, x, y, rfl, rfl, same⟩ |
      ⟨target, x, y, count, rfl, rfl, same⟩
    · exact agree
    all_goals simpa [Modifier.agrees] using Binary64.isAgreement_same.symm same
  trans := by
    intro a b c agree following
    rcases agrees_cases agree with rfl | ⟨x, y, unit, rfl, rfl, same⟩ |
        ⟨target, x, y, rfl, rfl, same⟩ |
      ⟨target, x, y, count, rfl, rfl, same⟩
    · exact following
    all_goals
      cases c <;> simp only [Modifier.agrees, Bool.and_eq_true, beq_iff_eq,
        Bool.false_eq_true] at following ⊢
      grind [Binary64.isAgreement_same.trans]

namespace Simplify

/-- The modifier has no effect: it decays at a rate that is not above zero, or amplifies
by exactly one. -/
inductive Idle : Option Modifier → Prop where
  | decay {rate : Binary64} (unit : TimeUnit) (notAbove : rate.le .zero = true) :
      Idle (some (.decay rate unit))
  | amplifies (target : Text) {factor : Binary64}
      (one : factor.same (.ofRatio false 1 1) = true) :
      Idle (some (.amplifies target factor))

/-- The modifiers that are folded are those without effect. -/
theorem isIdle_iff (m : Option Modifier) : isIdle m = true ↔ Idle m := by
  constructor
  · intro idle
    rcases m with _ | ⟨rate, unit⟩ | context | context | ⟨target, factor⟩ |
        ⟨target, factor, count⟩
    case some.decay => exact .decay unit idle
    case some.amplifies => exact .amplifies target idle
    all_goals cases idle
  · rintro (⟨unit, notAbove⟩ | ⟨target, one⟩)
    · exact notAbove
    · exact one

instance : DecidablePred Idle := fun m => decidable_of_iff _ (isIdle_iff m)

instance (p : Personality) : DecidablePred (EvolutionRule.Live p) :=
  fun r => decidable_of_iff _ (isDead_eq_false_iff p r)

/-- The modifier makes the strength depend on time or use. -/
inductive TimeDependent : Option Modifier → Prop where
  | decay (rate : Binary64) (unit : TimeUnit) : TimeDependent (some (.decay rate unit))
  | transformsTo (target : Text) (factor : Binary64) (count : Int) :
      TimeDependent (some (.transformsTo target factor count))

/-- What is looked for when hints are given. -/
theorem isTimeDependent_iff (m : Option Modifier) : isTimeDependent m = true ↔
    TimeDependent m := by
  constructor
  · intro depends
    rcases m with _ | ⟨rate, unit⟩ | context | context | ⟨target, factor⟩ |
        ⟨target, factor, count⟩
    case some.decay => exact .decay rate unit
    case some.transformsTo => exact .transformsTo target factor count
    all_goals cases depends
  · rintro (⟨rate, unit⟩ | ⟨target, factor, count⟩) <;> rfl

instance : DecidablePred TimeDependent := fun m => decidable_of_iff _ (isTimeDependent_iff m)

/-- A trait with the modifiers that have an effect. -/
def active (t : Trait) : Trait := { t with modifiers := t.modifiers.filter fun m => ¬ Idle m }

/-- The rules of a personality that are live. -/
def liveRules (p : Personality) : List EvolutionRule := p.evolution.filter fun r => r.Live p

/-- Folding leaves the modifiers that have an effect. -/
theorem foldTrait_eq_active (t : Trait) : foldTrait t = active t := by
  have same (m : Option Modifier) : (!isIdle m) = decide (¬ Idle m) := by
    rw [Bool.eq_iff_iff, decide_eq_true_iff, ← isIdle_iff]
    simp
  simp only [foldTrait, active, same]

/-- Dropping dead rules leaves those that are live. -/
theorem filter_isDead (p : Personality) :
    p.evolution.filter (fun r => !isDead p r) = liveRules p := by
  have same (r : EvolutionRule) : (!isDead p r) = decide (r.Live p) := by
    rw [Bool.eq_iff_iff, decide_eq_true_iff, ← isDead_eq_false_iff]
    simp
  simp only [liveRules, same]

/-- All modifiers of some traits. -/
def modifiersOf (traits : List Trait) : List (Option Modifier) :=
  traits.flatMap Trait.modifiers

/-- Every modifier is left or counted as folded. -/
theorem length_modifiersOf_fold (p : Personality) :
    (modifiersOf (p.traits.map foldTrait)).length + idleCount p =
      (modifiersOf p.traits).length := by
  rw [idleCount]
  induction p.traits with
  | nil => rfl
  | cons t traits inductionHypothesis =>
    have here : (foldTrait t).modifiers.length + t.modifiers.countP isIdle =
        t.modifiers.length := by
      rw [foldTrait, ← List.countP_eq_length_filter,
        t.modifiers.length_eq_countP_add_countP isIdle, Nat.add_comm]
      simp
    simp only [modifiersOf, List.map_cons, List.flatMap_cons, List.length_append,
      List.foldr_cons] at *
    omega

/-- Every rule is left or counted as dead. -/
theorem length_filter_isDead (p : Personality) :
    (liveRules p).length + p.evolution.countP (isDead p) = p.evolution.length := by
  rw [← filter_isDead, ← List.countP_eq_length_filter,
    p.evolution.length_eq_countP_add_countP (isDead p), Nat.add_comm]
  simp

/-- How often a modifier, or one that agrees with it, occurs. -/
def occurrences (m : Option Modifier) (modifiers : List (Option Modifier)) : Nat :=
  modifiers.countP (agreeing Modifier.agrees m)

/-- One of each class of modifiers that occurs more than once. -/
structure Represents (representatives modifiers : List (Option Modifier)) : Prop where
  repeated : ∀ r ∈ representatives, 2 ≤ occurrences r modifiers
  distinct : representatives.Pairwise fun a b => agreeing Modifier.agrees a b = false
  all : ∀ m, 2 ≤ occurrences m modifiers → ∃ r ∈ representatives,
    agreeing Modifier.agrees r m = true

variable {m n : Option Modifier}

/-- Modifiers that agree occur equally often. -/
theorem occurrences_congr (agree : agreeing Modifier.agrees m n = true)
    (modifiers : List (Option Modifier)) :
    occurrences m modifiers = occurrences n modifiers := by
  have agreement := Modifier.isAgreement_agrees.optional
  refine List.countP_congr fun other _ => ⟨fun first => ?_, fun second => ?_⟩
  · exact agreement.trans (agreement.symm agree) first
  · exact agreement.trans agree second

/-- A modifier that occurs agrees with itself. -/
theorem agrees_self_of_occurrences {modifiers : List (Option Modifier)}
    (occurs : 0 < occurrences m modifiers) :
    agreeing Modifier.agrees m m = true := by
  have agreement := Modifier.isAgreement_agrees.optional
  obtain ⟨other, -, agree⟩ := List.countP_pos_iff.mp occurs
  exact agreement.trans agree (agreement.symm agree)

/-- The first of the modifiers counts if it agrees. -/
theorem occurrences_cons (m first : Option Modifier) (modifiers : List (Option Modifier)) :
    occurrences m (first :: modifiers) =
      occurrences m modifiers + if agreeing Modifier.agrees m first then 1 else 0 := by
  rw [occurrences, List.countP_cons, occurrences]

/-- What is counted in `rest` stands for the classes that become repeated there: those
that occur at most once in `seen`, but more than once in all. -/
structure BecomeRepeated (seen rest representatives : List (Option Modifier)) : Prop where
  before : ∀ r ∈ representatives, occurrences r seen < 2
  repeated : ∀ r ∈ representatives, 2 ≤ occurrences r (seen ++ rest)
  distinct : representatives.Pairwise fun a b => agreeing Modifier.agrees a b = false
  all : ∀ m, occurrences m seen < 2 → 2 ≤ occurrences m (seen ++ rest) →
    ∃ r ∈ representatives, agreeing Modifier.agrees r m = true

/-- A modifier is counted wherever it stands. -/
theorem occurrences_moved (m first : Option Modifier) (seen rest : List (Option Modifier)) :
    occurrences m (first :: seen ++ rest) = occurrences m (seen ++ first :: rest) := by
  simp only [occurrences, List.countP_cons, List.countP_append]
  omega

section BecomeRepeated

variable {first : Option Modifier} {seen rest later : List (Option Modifier)}

/-- What becomes repeated later was rare before, and is repeated in all. -/
theorem BecomeRepeated.rest_members (becomes : BecomeRepeated (first :: seen) rest later) :
    (∀ r ∈ later, occurrences r seen < 2) ∧ ∀ r ∈ later,
    2 ≤ occurrences r (seen ++ first :: rest) := by
  constructor
  · intro r member
    have bound := becomes.before r member
    rw [occurrences_cons] at bound
    omega
  · intro r member
    rw [← occurrences_moved]
    exact becomes.repeated r member

/-- With its second modifier, a class becomes repeated. -/
theorem BecomeRepeated.second (becomes : BecomeRepeated (first :: seen) rest later)
    (second : occurrences first seen = 1) :
    BecomeRepeated seen (first :: rest) (first :: later) := by
  have agreement := Modifier.isAgreement_agrees.optional
  obtain ⟨fewer, repeatedLater⟩ := becomes.rest_members
  refine ⟨?_, ?_, ?_, ?_⟩
  · exact List.forall_mem_cons.mpr ⟨by omega, fewer⟩
  · refine List.forall_mem_cons.mpr ⟨?_, repeatedLater⟩
    have itself := agrees_self_of_occurrences (m :=
      first) (show 0 < occurrences first seen by omega)
    rw [← occurrences_moved, List.cons_append, occurrences_cons, if_pos itself, occurrences,
      List.countP_append]
    rw [occurrences] at second
    omega
  · refine List.pairwise_cons.mpr ⟨fun r member => ?_, becomes.distinct⟩
    -- A later one of the same class would be its third.
    by_contra agree
    have agree : agreeing Modifier.agrees first r = true := by simpa using agree
    have bound := becomes.before r member
    rw [occurrences_cons, if_pos (agreement.symm agree), ← occurrences_congr agree] at bound
    omega
  · intro m few many
    by_cases agree : agreeing Modifier.agrees first m = true
    · exact ⟨first, List.mem_cons_self, agree⟩
    · have still : occurrences m (first :: seen) < 2 := by
        rw [occurrences_cons, if_neg fun other => agree (agreement.symm other)]
        omega
      obtain ⟨r, member, same⟩ := becomes.all m still (by rw [occurrences_moved]; exact many)
      exact ⟨r, List.mem_cons_of_mem first member, same⟩

/-- With any other modifier than the second of its class, no class becomes repeated. -/
theorem BecomeRepeated.other (becomes : BecomeRepeated (first :: seen) rest later)
    (other : occurrences first seen ≠ 1) : BecomeRepeated seen (first :: rest) later := by
  obtain ⟨fewer, repeatedLater⟩ := becomes.rest_members
  refine ⟨fewer, repeatedLater, becomes.distinct, fun m few many => ?_⟩
  refine becomes.all m ?_ (by rw [occurrences_moved]; exact many)
  rw [occurrences_cons]
  split
  · rename_i agree
    rw [← occurrences_congr agree] at other
    omega
  · omega

/-- A class becomes repeated with the modifier that has one agreeing modifier before it,
so the count of these modifiers is the number of classes. -/
theorem exists_becomeRepeated (seen rest : List (Option Modifier)) :
    ∃ representatives, BecomeRepeated seen rest representatives ∧
      representatives.length = secondOccurrences seen rest := by
  induction rest generalizing seen with
  | nil =>
    refine ⟨[], ⟨by simp, by simp, by simp, fun m few many => ?_⟩, rfl⟩
    rw [List.append_nil] at many
    omega
  | cons first rest inductionHypothesis =>
    have agreement := Modifier.isAgreement_agrees.optional
    obtain ⟨later, becomes, counted⟩ := inductionHypothesis (first :: seen)
    have earlier : seen.countP (fun other => agreeing Modifier.agrees other first) =
        occurrences first seen :=
      List.countP_congr fun other _ => ⟨agreement.symm, agreement.symm⟩
    rw [secondOccurrences, earlier]
    by_cases second : occurrences first seen = 1
    · exact ⟨first :: later, becomes.second second, by simp [second, counted, Nat.add_comm]⟩
    · exact ⟨later, becomes.other second, by simp [second, counted]⟩

end BecomeRepeated

/-- The modifiers that are counted as common are one of each class that occurs
more than once. -/
theorem exists_represents (modifiers : List (Option Modifier)) :
    ∃ representatives, Represents representatives modifiers ∧
      representatives.length = secondOccurrences [] modifiers := by
  obtain ⟨representatives, becomes, counted⟩ := exists_becomeRepeated [] modifiers
  refine ⟨representatives, ⟨becomes.repeated, becomes.distinct, fun m many => ?_⟩, counted⟩
  exact becomes.all m (by simp [occurrences]) many

/-- What a simplification that was asked for makes of a personality, and
what it counts. -/
structure Accounted (p : Personality) (degree : Degree) (q : Personality) (stats : Stats) :
    Prop where
  untouched : q.name = p.name ∧ q.knowledge = p.knowledge ∧ q.behaviors = p.behaviors
  /-- The traits keep their names and strengths, and the modifiers that have an effect. -/
  traits : q.traits = p.traits.map fun t => ⟨t.name, t.strength, t.modifiers.filter fun m =>
    ¬ Idle m⟩
  rules : degree = .basic → q.evolution = p.evolution.filter fun r => r.Live p
  /-- At the highest degree the rules fire in order, and rules of one priority are in
  their old order. -/
  ordered : degree = .aggressive → q.evolution.Pairwise (fun a b =>
    priority a.trigger ≤ priority b.trigger) ∧
    ∀ level, q.evolution.filter (fun r => priority r.trigger = level) =
      (p.evolution.filter fun r => r.Live p).filter fun r => priority r.trigger = level
  asked : stats.degree = degree
  folded : (q.traits.flatMap Trait.modifiers).length + stats.folded =
    (p.traits.flatMap Trait.modifiers).length
  dead : q.evolution.length + stats.dead = p.evolution.length
  hints : stats.hints = (q.traits.filter fun t => ∃ m ∈ t.modifiers,
    TimeDependent m).map Trait.name
  uncounted : degree = .basic → stats.common = 0 ∧ stats.reordered = 0
  common : degree = .aggressive → ∃ representatives,
    Represents representatives (q.traits.flatMap Trait.modifiers) ∧
      stats.common = representatives.length
  /-- A rule is counted as reordered where it does not agree with the one that
  stood there. -/
  reordered : degree = .aggressive → stats.reordered =
    ((p.evolution.filter fun r => r.Live p).zip q.evolution).countP fun (before, after) =>
      !before.agrees after
  changed : (∀ x ∈ p.numbers, x ≠ .nan) → (stats.changed = true ↔ q ≠ p)

variable {p : Personality}

/-- What is counted at the basic degree. -/
theorem simplify_basic (p : Personality) : p.simplify .basic =
    ({ p with traits := p.traits.map foldTrait, evolution := liveRules p },
      { degree := .basic, folded := idleCount p, dead := p.evolution.countP (isDead p)
        hints := ((p.traits.map foldTrait).filter fun t =>
          t.modifiers.any isTimeDependent).map Trait.name }) := by
  have sameDead : isDead (fold p { degree := .basic }).1 = isDead p :=
    isDead_eq_of_trims (fold_trims p _)
  simp only [Personality.simplify, passes, List.foldl_cons, List.foldl_nil, dropDead,
    sameDead, hint]
  simp [fold, filter_isDead]

/-- The highest degree goes on where the basic one ends. -/
theorem simplify_aggressive (p : Personality) : p.simplify .aggressive =
    ({ (p.simplify .basic).1 with evolution := inFiringOrder (liveRules p) },
      { (p.simplify .basic).2 with
        degree := .aggressive
        common := secondOccurrences [] (modifiersOf (p.traits.map foldTrait))
        reordered := moved (liveRules p) (inFiringOrder (liveRules p)) }) := by
  have sameDead : isDead (fold p { degree := .aggressive }).1 = isDead p :=
    isDead_eq_of_trims (fold_trims p _)
  rw [simplify_basic]
  simp only [Personality.simplify, passes, List.foldl_cons, List.foldl_nil, dropDead,
    sameDead, hint, countCommon, reorder]
  simp [fold, filter_isDead, modifiersOf]

/-- Folding takes nothing away exactly when it counts nothing. -/
theorem map_foldTrait_eq_iff (p : Personality) : p.traits.map foldTrait = p.traits ↔
    idleCount p = 0 := by
  constructor
  · intro same
    have counted := length_modifiersOf_fold p
    rw [same] at counted
    omega
  · intro none
    have unchanged := congrArg (fun state => state.1.traits)
      (fold_of_active ((idleCount_eq_zero_iff p).mp none) { degree := .none })
    exact unchanged

/-- Dropping takes nothing away exactly when it counts nothing. -/
theorem liveRules_eq_iff (p : Personality) : liveRules p = p.evolution ↔
    p.evolution.countP (isDead p) = 0 := by
  constructor
  · intro same
    have counted := length_filter_isDead p
    rw [same] at counted
    omega
  · intro none
    refine List.Sublist.eq_of_length List.filter_sublist ?_
    have counted := length_filter_isDead p
    omega

/-- Reordering moves nothing exactly when it counts nothing, as long as the rules agree
with themselves. -/
theorem inFiringOrder_eq_iff {rules : List EvolutionRule}
    (agree : ∀ r ∈ rules, r.agrees r = true) :
    inFiringOrder rules = rules ↔ moved rules (inFiringOrder rules) = 0 := by
  constructor
  · intro same
    rw [same]
    exact moved_self agree
  · intro unmoved
    exact inFiringOrder_of_inOrder (inOrder_of_moved_eq_zero unmoved)

/-- A personality is as it was when its traits and its rules are. -/
theorem eq_self_iff (p : Personality) (traits : List Trait) (rules : List EvolutionRule) :
    { p with traits := traits, evolution := rules } = p ↔ traits = p.traits ∧
    rules = p.evolution := by
  constructor
  · intro same
    exact ⟨congrArg Personality.traits same, congrArg Personality.evolution same⟩
  · rintro ⟨rfl, rfl⟩
    rfl

/-- Without a NaN, the counts tell whether anything has changed. -/
theorem changed_iff (free : ∀ x ∈ p.numbers, x ≠ .nan) (degree : Degree) :
    (p.simplify degree).2.changed = true ↔ (p.simplify degree).1 ≠ p := by
  have agree : ∀ r ∈ p.evolution, r.agrees r = true := by
    refine fun r member => r.agrees_self fun x inRule => free x ?_
    simp only [Personality.numbers, List.mem_append, List.mem_flatMap]
    exact .inr (.inr (.inr ⟨r, member, inRule⟩))
  rw [← not_iff_not, not_not, Bool.not_eq_true]
  cases degree with
  | none => simp [Personality.simplify, passes, Stats.changed]
  | basic =>
    rw [simplify_basic, eq_self_iff, map_foldTrait_eq_iff, liveRules_eq_iff]
    simp [Stats.changed]
  | aggressive =>
    -- Whatever was dropped is missing from the sorted rules as well.
    have sorted : inFiringOrder (liveRules p) = p.evolution ↔
        liveRules p = p.evolution ∧ inFiringOrder (liveRules p) = liveRules p := by
      constructor
      · intro same
        have asMany : (liveRules p).length = p.evolution.length := by
          rw [← same]
          exact (List.mergeSort_perm (liveRules p) _).length_eq.symm
        have all := List.filter_sublist.eq_of_length asMany
        exact ⟨all, same.trans all.symm⟩
      · rintro ⟨all, unmoved⟩
        exact unmoved.trans all
    have kept : ∀ r ∈ liveRules p, r.agrees r = true :=
      fun r member => agree r (List.mem_filter.mp member).1
    rw [simplify_aggressive, simplify_basic]
    dsimp only
    rw [eq_self_iff p, sorted, map_foldTrait_eq_iff, liveRules_eq_iff,
      inFiringOrder_eq_iff kept]
    simp [Stats.changed, and_assoc]

/-- The hints are the names of the traits that are left with a modifier that
depends on time. -/
theorem filter_isTimeDependent (traits : List Trait) :
    (traits.filter fun t => t.modifiers.any isTimeDependent) =
      traits.filter fun t => ∃ m ∈ t.modifiers, TimeDependent m := by
  refine List.filter_congr fun t _ => ?_
  rw [Bool.eq_iff_iff, decide_eq_true_iff, List.any_eq_true]
  simp only [isTimeDependent_iff]

end Simplify

open Simplify

/-- The result and the counts of every simplification. At the lowest degree nothing is
done and nothing is counted. At the others the traits are left with the modifiers that
have an effect and the personality with the rules that are live, which the highest
degree puts in the order of firing; folding and dropping count what is missing
afterwards, hints are given for the traits that still depend on time, the common
modifiers are counted once for each class that occurs more than once, and the counts
tell whether anything has changed. -/
theorem Personality.simplify_accounted (p : Personality) :
    p.simplify .none =
      (p,
      { degree := .none, folded := 0, dead := 0, hints := [], common := 0, reordered := 0 }) ∧
    ∀ degree, degree ≠ .none →
      Accounted p degree (p.simplify degree).1 (p.simplify degree).2 := by
  refine ⟨rfl, fun degree asked => ?_⟩
  have folds : p.traits.map foldTrait = p.traits.map active :=
    List.map_congr_left fun t _ => foldTrait_eq_active t
  have folded := length_modifiersOf_fold p
  have dead := length_filter_isDead p
  have changed := fun free => changed_iff (p := p) free degree
  cases degree with
  | none => exact absurd rfl asked
  | basic =>
    rw [simplify_basic] at changed ⊢
    exact {
      untouched := ⟨rfl, rfl, rfl⟩
      traits := folds
      rules := fun _ => rfl
      ordered := nofun
      asked := rfl
      folded, dead, changed
      hints := congrArg (List.map Trait.name) (filter_isTimeDependent _)
      uncounted := fun _ => ⟨rfl, rfl⟩
      common := nofun
      reordered := nofun }
  | aggressive =>
    obtain ⟨representatives, represents, counted⟩ :=
      exists_represents (modifiersOf (p.traits.map foldTrait))
    rw [simplify_aggressive, simplify_basic] at changed ⊢
    exact {
      untouched := ⟨rfl, rfl, rfl⟩
      traits := folds
      rules := nofun
      ordered := fun _ => ⟨inOrder_inFiringOrder _, fun level =>
        ofPriority_inFiringOrder level _⟩
      asked := rfl
      folded, changed
      dead := by
        rw [inFiringOrder, (List.mergeSort_perm (liveRules p) _).length_eq]
        exact dead
      hints := congrArg (List.map Trait.name) (filter_isTimeDependent _)
      uncounted := nofun
      common := fun _ => ⟨representatives, represents, counted.symm⟩
      reordered := fun _ => rfl }

/-- A personality with two idle modifiers, two amplifications that agree though they are
by different zeros, a rule on an unknown domain, and a rule without a trigger in front of
one that should fire before it. -/
def Personality.cluttered : Personality where
  name := "cluttered"
  traits := [
    { name := "calm", strength := .ofRatio false 1 4
      modifiers := [some (.decay (.ofRatio true 1 10) .day),
        some (.amplifies "joy" (.ofRatio false 0 1)), none] },
    { name := "joy", strength := .ofRatio false 1 2
      modifiers := [some (.amplifies "calm" (.ofRatio false 1 1)),
        some (.amplifies "joy" (.ofRatio true 0 1)),
        some (.transformsTo "calm" (.ofRatio false 1 2) 3)] }]
  knowledge := []
  behaviors := []
  evolution := [⟨none, some (.adjust "calm" (.ofRatio false 1 4))⟩,
    ⟨some (.interactions 5), some (.unlock "cellar")⟩,
    ⟨some (.learns "tea"), some (.adjust "joy" (.ofRatio false 1 4))⟩]

/-- Two modifiers are folded away and one rule is dropped; one modifier of those that are
left is repeated. -/
theorem Personality.simplify_accounted_cluttered :
    Degree.aggressive ≠ .none ∧ (∀ x ∈ cluttered.numbers, x ≠ .nan) ∧
    (cluttered.simplify .aggressive).2.folded = 2 ∧
    (cluttered.simplify .aggressive).1.evolution.length + 1 = 3 ∧
    (cluttered.simplify .aggressive).2.hints = ["joy"] ∧
    (cluttered.simplify .aggressive).2.changed = true ∧
    ∃ representatives, Represents representatives
        [some (.amplifies "joy" (.ofRatio false 0 1)), none,
        some (.amplifies "joy" (.ofRatio true 0 1)),
        some (.transformsTo "calm" (.ofRatio false 1 2) 3)] ∧
      representatives.length = 1 := by
  have free : ∀ x ∈ cluttered.numbers, x ≠ .nan := by decide +kernel
  have account := (simplify_accounted cluttered).2 .aggressive (by decide)
  have folded : (cluttered.simplify .aggressive).2.folded = 2 := by decide +kernel
  have dead : (cluttered.simplify .aggressive).2.dead = 1 := by decide +kernel
  have common : (cluttered.simplify .aggressive).2.common = 1 := by decide +kernel
  have hints : (cluttered.simplify .aggressive).2.hints = [("joy" : Text)] := by decide +kernel
  have differs : (cluttered.simplify .aggressive).1 ≠ cluttered := by
    intro same
    have less := account.folded
    rw [same, folded] at less
    omega
  have left : (cluttered.simplify .aggressive).1.traits.flatMap Trait.modifiers =
      [some (.amplifies "joy" (.ofRatio false 0 1)), none,
        some (.amplifies "joy" (.ofRatio true 0 1)),
        some (.transformsTo "calm" (.ofRatio false 1 2) 3)] := by decide +kernel
  obtain ⟨representatives, represents, counted⟩ := account.common rfl
  rw [left] at represents
  have fewer := account.dead
  rw [dead] at fewer
  exact ⟨by
    decide, free, folded, fewer, hints, (account.changed free).mpr differs, representatives,
      represents, counted.symm.trans common⟩

end Persona
