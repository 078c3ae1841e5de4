import Persona.Proofs.Analysis.Checks
import Persona.Proofs.Analysis.Classes
import Persona.Proofs.Analysis.Places
import Persona.Proofs.Validation

/-!
# Each finding once

A check that speaks of names reports each of them once, however often it is mentioned or
declared. A check that compares entries reports each two that clash, so of three behaviors
that all clash it reports three problems. Whether two entries clash does not depend on
their order, which only decides how the problem is worded.

Proof: Each check goes through its lists in its own way, and for each way there is
one lemma on findings and their places. What is left for a check is to say when two
entries clash.
-/

namespace Persona

/-- Whether two elements clash does not depend on their order, and they clash in
one way only. -/
structure Mutual {α β : Type} (clash : α → α → β → Prop) : Prop where
  symm : ∀ a b, (∃ found, clash a b found) → ∃ found, clash b a found
  unique : ∀ a b found other, clash a b found → clash a b other → found = other

/-- One modifier depends on a circumstance and one is suppressed by it. -/
inductive ContextClash (trait : Text) : Option Modifier → Option Modifier → Problem →
    Prop where
  | suppressed (context : Option Context) :
      ContextClash trait (some (.when context)) (some (.unless context))
        (.traitConflict trait context)
  | enabled (context : Option Context) :
      ContextClash trait (some (.unless context)) (some (.when context))
        (.traitConflict trait context)

/-- Two decays in one unit have different rates. -/
inductive DecayClash (trait : Text) : Option Modifier → Option Modifier → Problem → Prop where
  | rates (first second : Binary64) (unit : TimeUnit) (differ : first.same second = false) :
      DecayClash trait (some (.decay first unit)) (some (.decay second unit))
        (.modifierConflict trait first second unit)

/-- One action avoids what the other prefers or seeks, or both set one style to
different values. -/
inductive ActionClash : Option Action → Option Action → Problem → Prop where
  | prefers (value : Text) :
      ActionClash (some (.prefer value)) (some (.avoid value))
        (.contradiction value (.prefer value) (.avoid value))
  | seeks (value : Text) :
      ActionClash (some (.seek value)) (some (.avoid value))
        (.contradiction value (.seek value) (.avoid value))
  | preferred (value : Text) :
      ActionClash (some (.avoid value)) (some (.prefer value))
        (.contradiction value (.avoid value) (.prefer value))
  | sought (value : Text) :
      ActionClash (some (.avoid value)) (some (.seek value))
        (.contradiction value (.avoid value) (.seek value))
  | styles (key first second : Text) (differ : first ≠ second) :
      ActionClash (some (.setStyle key first)) (some (.setStyle key second))
        (.styleConflict key first second)

/-- Modifiers clash whichever comes first. -/
theorem mutual_contextClash (trait : Text) : Mutual (ContextClash trait) where
  symm := by
    rintro a b ⟨found, clash⟩
    cases clash with
    | suppressed context => exact ⟨_, .enabled context⟩
    | enabled context => exact ⟨_, .suppressed context⟩
  unique := by
    intro a b found other first second
    cases first <;> cases second <;> rfl

/-- Decays clash whichever comes first. -/
theorem mutual_decayClash (trait : Text) : Mutual (DecayClash trait) where
  symm := by
    rintro a b ⟨found, clash⟩
    obtain ⟨first, second, unit, differ⟩ := clash
    have differBack : second.same first = false :=
      Bool.eq_false_iff.mpr fun same =>
        Bool.eq_false_iff.mp differ (Binary64.isAgreement_same.symm same)
    exact ⟨_, .rates second first unit differBack⟩
  unique := by
    intro a b found other first second
    cases first
    cases second
    rfl

/-- Actions clash whichever comes first. -/
theorem mutual_actionClash : Mutual ActionClash where
  symm := by
    rintro a b ⟨found, clash⟩
    cases clash with
    | prefers value => exact ⟨_, .preferred value⟩
    | seeks value => exact ⟨_, .sought value⟩
    | preferred value => exact ⟨_, .prefers value⟩
    | sought value => exact ⟨_, .seeks value⟩
    | styles key first second differ => exact ⟨_, .styles key second first differ.symm⟩
  unique := by
    intro a b found other first second
    cases first <;> cases second <;> rfl

namespace Check

/-- The circumstance of two modifiers is found if they clash. -/
theorem opposed?_iff (trait : Text) (a b : Option Modifier) (found : Problem) :
    (opposed? a b).map (.traitConflict trait) = some found ↔ ContextClash trait a b found := by
  constructor
  · intro opposed
    unfold opposed? at opposed
    split at opposed
    · split at opposed
      case isTrue same =>
        cases opposed
        rw [same]
        exact .suppressed _
      case isFalse => cases opposed
    · split at opposed
      case isTrue same =>
        cases opposed
        rw [same]
        exact .enabled _
      case isFalse => cases opposed
    · cases opposed
  · rintro ⟨⟩ <;> simp [opposed?]

/-- The rates of two decays are found if they clash. -/
theorem decayConflict?_iff (trait : Text) (a b : Option Modifier) (found : Problem) :
    ((decayConflict? a b).map fun (first, second, unit) =>
      Problem.modifierConflict trait first second unit) =
      some found ↔ DecayClash trait a b found := by
  constructor
  · intro conflict
    unfold decayConflict? at conflict
    split at conflict
    · split at conflict
      case isTrue test =>
        cases conflict
        obtain ⟨sameUnit, differ⟩ : _ = _ ∧ _ := by simpa using test
        rw [← sameUnit]
        exact .rates _ _ _ differ
      case isFalse => cases conflict
    · cases conflict
  · rintro ⟨first, second, unit, differ⟩
    simp [decayConflict?, differ]

/-- The problem of two actions, if there is one. -/
def actionProblem? : Option Action → Option Action → Option Problem
  | some first, some second => (actionConflicts first second).head?
  | _, _ => none

/-- Two actions have at most one problem: those that want and avoid set no style. -/
theorem actionConflicts_eq (first second : Action) :
    actionConflicts first second = (actionConflicts first second).head?.toList := by
  cases first <;> cases second <;> simp [actionConflicts, avoided?] <;> split <;> rfl

/-- The problem of two actions is found if they clash. -/
theorem actionProblem?_iff (a b : Option Action) (found : Problem) :
    actionProblem? a b = some found ↔ ActionClash a b found := by
  constructor
  · intro problem
    cases a with
    | none => cases problem
    | some first =>
      cases b with
      | none => cases problem
      | some second =>
        cases first with
        | prefer value =>
          cases second with
          | avoid other =>
            obtain ⟨rfl, rfl⟩ : value = other ∧ _ = found := by
              simpa [actionProblem?, actionConflicts, avoided?, ite_eq_iff] using problem
            exact .prefers value
          | _ => simp [actionProblem?, actionConflicts, avoided?] at problem
        | seek value =>
          cases second with
          | avoid other =>
            obtain ⟨rfl, rfl⟩ : value = other ∧ _ = found := by
              simpa [actionProblem?, actionConflicts, avoided?, ite_eq_iff] using problem
            exact .seeks value
          | _ => simp [actionProblem?, actionConflicts, avoided?] at problem
        | avoid value =>
          cases second with
          | prefer other =>
            obtain ⟨rfl, rfl⟩ : other = value ∧ _ = found := by
              simpa [actionProblem?, actionConflicts, avoided?, ite_eq_iff] using problem
            exact .preferred other
          | seek other =>
            obtain ⟨rfl, rfl⟩ : other = value ∧ _ = found := by
              simpa [actionProblem?, actionConflicts, avoided?, ite_eq_iff] using problem
            exact .sought other
          | _ => simp [actionProblem?, actionConflicts, avoided?] at problem
        | setStyle key value =>
          cases second with
          | setStyle style other =>
            obtain ⟨⟨rfl, differ⟩, rfl⟩ : (key = style ∧ value ≠ other) ∧ _ = found := by
              simpa [actionProblem?, actionConflicts, avoided?, apply_ite List.head?,
                ite_eq_iff] using problem
            exact .styles key value other differ
          | _ => simp [actionProblem?, actionConflicts, avoided?] at problem
  · rintro ⟨⟩ <;> simp [actionProblem?, actionConflicts, avoided?, *]

/-- Two modifiers of one trait clash: at the index of the trait, and at two
places in it. -/
def ModifiersClash (clash : Text → Option Modifier → Option Modifier → Problem → Prop)
    (p : Personality) (place : Nat × Nat × Nat) (found : Problem) : Prop :=
  ∃ t, p.traits[place.1]? = some t ∧ Clashing (clash t.name) t.modifiers place.2 found

/-- The clashes of circumstances are found where they are, trait by trait. -/
theorem traitConflicts_found (p : Personality) :
    FoundAt (Prod.Lex (· < ·) PairBefore) (ModifiersClash ContextClash p) (traitConflicts p) :=
  FoundAt.flatMap fun t _ => pairs_found (opposed?_iff t.name) t.modifiers

/-- The clashes of decays are found where they are, trait by trait. -/
theorem modifierConflicts_found (p : Personality) :
    FoundAt (Prod.Lex (· < ·) PairBefore) (ModifiersClash DecayClash p)
      (modifierConflicts p) :=
  FoundAt.flatMap fun t _ => pairs_found (decayConflict?_iff t.name) t.modifiers

/-- The clashes of behaviors are found where they are. -/
theorem consistency_found (p : Personality) :
    FoundAt PairBefore (Clashing (fun a b : BehaviorRule => ActionClash a.action b.action)
      p.behaviors) (consistency p) := by
  have same : consistency p = (pairs p.behaviors).filterMap fun q =>
      actionProblem? q.1.action q.2.action := by
    rw [consistency, List.filterMap_eq_flatMap_toList]
    congr 1
    funext q
    obtain ⟨⟨_, a⟩, ⟨_, b⟩⟩ := q
    cases a with
    | none => rfl
    | some first =>
      cases b with
      | none => rfl
      | some second => exact actionConflicts_eq first second
  rw [same]
  exact pairs_found (fun a b => actionProblem?_iff a.action b.action) p.behaviors

end Check

/-- The domains that a trigger refers to. -/
def Trigger.domains : Trigger → List Text
  | .timeIn domain _ _ => [domain]
  | .learns _ | .feedback _ | .interactions _ => []

/-- The domains that an effect refers to, in the order in which they are written. -/
def Effect.domains : Effect → List Text
  | .unlock domain => [domain]
  | .connect source target _ => [source, target]
  | .adjust _ _ | .adopt _ => []

/-- The domains that a rule refers to. The trigger is written before the effect. -/
def EvolutionRule.domains (r : EvolutionRule) : List Text :=
  r.trigger.toList.flatMap Trigger.domains ++ r.effect.toList.flatMap Effect.domains

/-- The domains that a personality refers to, in the order of its document: those of the
connections, each from its source to its target, and those of the rules of evolution. -/
def Personality.references (p : Personality) : List Text :=
  (p.knowledge.flatMap fun d => d.connections.flatMap fun c => [c.source, c.target]) ++
    p.evolution.flatMap EvolutionRule.domains

/-- A connection or a rule of evolution uses this name as that of a domain. -/
inductive Personality.UsesDomain (p : Personality) : Text → Prop where
  | source (c : Connection) (member : c ∈ p.connections) : UsesDomain p c.source
  | target (c : Connection) (member : c ∈ p.connections) : UsesDomain p c.target
  | timeIn (r : EvolutionRule) (domain : Text) (unit : TimeUnit) (periods : Int)
      (member : r ∈ p.evolution)
      (trigger : r.trigger = some (.timeIn domain unit periods)) : UsesDomain p domain
  | unlock (r : EvolutionRule) (domain : Text) (member : r ∈ p.evolution)
      (effect : r.effect = some (.unlock domain)) :
      UsesDomain p domain
  | connectSource (r : EvolutionRule) (source target : Text) (strength : Binary64)
      (member : r ∈ p.evolution)
      (effect : r.effect = some (.connect source target strength)) : UsesDomain p source
  | connectTarget (r : EvolutionRule) (source target : Text) (strength : Binary64)
      (member : r ∈ p.evolution)
      (effect : r.effect = some (.connect source target strength)) : UsesDomain p target

namespace Check

/-- What the check of a rule looks at are the domains that the rule refers to. -/
theorem map_ruleMentions (r : EvolutionRule) : (ruleMentions r).map Prod.fst = r.domains := by
  obtain ⟨trigger, effect⟩ := r
  rw [ruleMentions, List.map_append, EvolutionRule.domains]
  congr 1
  · rcases trigger with _ | _ | _ | _ | _ <;> rfl
  · rcases effect with _ | _ | _ | _ | _ <;> rfl

/-- What the check looks at are the domains that the personality refers to, in the
same order. -/
theorem map_mentions (p : Personality) : (mentions p).map Prod.fst = p.references := by
  simp only [mentions, Personality.references, Personality.connections, List.map_append,
    List.map_flatMap, List.flatMap_assoc, map_ruleMentions, List.map_cons, List.map_nil]

/-- A rule refers to the domain of its trigger and to those of its effect. -/
theorem mem_domains_iff (r : EvolutionRule) (name : Text) : name ∈ r.domains ↔
    (∃ unit periods, r.trigger = some (.timeIn name unit periods)) ∨
    r.effect = some (.unlock name) ∨
      ∃ source target strength, r.effect = some (.connect source target strength) ∧
        (name = source ∨ name = target) := by
  obtain ⟨trigger, effect⟩ := r
  rw [EvolutionRule.domains, List.mem_append]
  refine or_congr ?_ ?_
  · cases trigger with
    | none => simp
    | some trigger => cases trigger <;> simp [Trigger.domains, eq_comm]
  · cases effect with
    | none => simp
    | some effect => cases effect <;> simp [Effect.domains, eq_comm]

/-- The domains that are referred to are those that are used. -/
theorem mem_references_iff (p : Personality) (name : Text) : name ∈ p.references ↔
    p.UsesDomain name := by
  have split : name ∈ p.references ↔ (∃ c ∈ p.connections, name = c.source ∨ name = c.target) ∨
      ∃ r ∈ p.evolution, name ∈ r.domains := by
    rw [Personality.references, List.mem_append, ← List.flatMap_assoc,
      ← Personality.connections]
    simp
  rw [split]
  constructor
  · rintro (⟨c, member, rfl | rfl⟩ | ⟨r, member, mentioned⟩)
    · exact .source c member
    · exact .target c member
    · rcases (mem_domains_iff r name).mp mentioned with ⟨unit, periods, trigger⟩ | effect |
        ⟨source, target, strength, effect, rfl | rfl⟩
      · exact .timeIn r name unit periods member trigger
      · exact .unlock r name member effect
      · exact .connectSource r name target strength member effect
      · exact .connectTarget r source name strength member effect
  · rintro (⟨c, member⟩ | ⟨c, member⟩ | ⟨r, _, unit, periods, member, trigger⟩ |
      ⟨r, _, member, effect⟩ |
      ⟨r, _, target, strength, member, effect⟩ | ⟨r, source, _, strength, member, effect⟩)
    · exact .inl ⟨c, member, .inl rfl⟩
    · exact .inl ⟨c, member, .inr rfl⟩
    · exact .inr ⟨r, member, (mem_domains_iff r name).mpr (.inl ⟨unit, periods, trigger⟩)⟩
    · exact .inr ⟨r, member, (mem_domains_iff r name).mpr (.inr (.inl effect))⟩
    · exact .inr ⟨r, member,
        (mem_domains_iff r name).mpr (.inr (.inr ⟨_, _, _, effect, .inl rfl⟩))⟩
    · exact .inr ⟨r, member,
        (mem_domains_iff r name).mpr (.inr (.inr ⟨_, _, _, effect, .inr rfl⟩))⟩

/-- An unknown domain is reported where it is mentioned for the first time. -/
theorem unknownMentions_eq (p : Personality) {reported seen : List Text}
    (all : List (Text × Mention))
    (same : ∀ name, p.hasDomain name = false → (name ∈ reported ↔ name ∈ seen)) :
    (unknownMentions p reported all).map Problem.subject =
      occurringNames (fun name => !p.hasDomain name) 0 seen (all.map Prod.fst) := by
  induction all generalizing reported seen with
  | nil => rfl
  | cons first others inductionHypothesis =>
    obtain ⟨name, mention⟩ := first
    rw [unknownMentions, List.map_cons, occurringNames]
    cases known : p.hasDomain name with
    | true =>
      have sameOthers : ∀ other, p.hasDomain other = false →
          (other ∈ reported ↔ other ∈ name :: seen) := by
        intro other unknown
        have differs : other ≠ name := by
          rintro rfl
          exact Bool.false_ne_true (unknown.symm.trans known)
        rw [same other unknown, List.mem_cons, or_iff_right differs]
      simpa using inductionHypothesis sameOthers
    | false =>
      by_cases again : name ∈ reported
      · have seenBefore : name ∈ seen := (same name known).mp again
        have sameOthers : ∀ other, p.hasDomain other = false →
            (other ∈ reported ↔ other ∈ name :: seen) := by
          intro other unknown
          rw [same other unknown, List.mem_cons]
          constructor
          · exact .inr
          · rintro (rfl | before)
            · exact seenBefore
            · exact before
        simpa [again, List.count_eq_zero, seenBefore] using inductionHypothesis sameOthers
      · have unseen : name ∉ seen := fun before => again ((same name known).mpr before)
        have sameOthers : ∀ other, p.hasDomain other = false →
            (other ∈ name :: reported ↔ other ∈ name :: seen) := by
          intro other unknown
          rw [List.mem_cons, List.mem_cons, same other unknown]
        simpa [again, List.count_eq_zero, unseen, Problem.subject] using inductionHypothesis
          sameOthers

/-- Unknown domains that are mentioned are reported, each once, in the order in which they
are mentioned first. -/
theorem domainReferences_listed (p : Personality) :
    Lists 0 (fun name => ¬ p.DeclaresDomain name) p.references
      ((domainReferences p).map Problem.subject) := by
  have listed := lists_occurringNames (fun name => !p.hasDomain name) 0 p.references
  rw [domainReferences, unknownMentions_eq p (mentions p) fun _ _ => Iff.rfl, map_mentions]
  have unknown : (fun name => (!p.hasDomain name) = true) = fun name =>
      ¬ p.DeclaresDomain name := by
    funext name
    rw [← p.hasDomain_iff]
    simp
  rwa [unknown] at listed

end Check

/-- The name of a domain that is declared more than once. -/
def CompileError.duplicate? : CompileError → Option Text
  | .duplicateDomain name => some name
  | _ => none

/-- Of a personality with everything in its place, validation reports the names of domains
that are repeated. -/
theorem Personality.validate_duplicates {p : Personality} (complete : p.Complete) :
    p.validate.2.filterMap CompileError.duplicate? =
      repetitions [] (p.knowledge.map Domain.name) := by
  obtain ⟨analysis, ran⟩ := Analysis.run_ok complete
  have strengths : (p.traits.filter fun t => !Validation.isStrength t.strength).filterMap
      (CompileError.duplicate? ∘ fun t => CompileError.invalidStrength t.name t.strength) =
        [] :=
    List.filterMap_eq_nil_iff.mpr fun _ _ => rfl
  have named :
      (if p.name.isEmpty then [CompileError.emptyName] else []).filterMap
        CompileError.duplicate? = [] := by
    split <;> rfl
  have sound :
      (if analysis.isValid then [] else [CompileError.unsound analysis.problems]).filterMap
      CompileError.duplicate? = [] := by split <;> rfl
  rw [validate_eq complete ran, Validation.ownErrors]
  dsimp only
  rw [List.filterMap_append, List.filterMap_append, List.filterMap_append,
    List.filterMap_map, strengths, named, sound, List.filterMap_map]
  simp [Function.comp_def, CompileError.duplicate?]

namespace Check

/-- Findings are exact, and none is doubled. An unknown domain is reported once, where it
is mentioned first, and a name that is declared several times once, where it is declared
for the second time. Of each class of triggers with several different effects one problem
is reported, with their number. Of every two places where modifiers or behaviors clash one
problem is reported, whichever of the two comes first. -/
theorem findings_exact {p : Personality} (complete : p.Complete)
    (free : ∀ n ∈ p.numbers, n ≠ .nan) :
    (Lists 0 (fun name => ¬ p.DeclaresDomain name) p.references ((domainReferences p).map
      Problem.subject) ∧
      ∀ name, name ∈ p.references ↔ p.UsesDomain name) ∧
    (∃ names, duplicates p = names.map .duplicateTrait ∧
      Lists 1 (fun _ => True) (p.traits.map Trait.name) names) ∧
    Lists 1 (fun _ => True) (p.knowledge.map Domain.name) (p.validate.2.filterMap
      CompileError.duplicate?) ∧
    (∃ classes, Classified p.evolution classes ∧
      (∀ c ∈ classes, ∀ chosen, StandFor sameEffect (effectsOf p.evolution c.trigger) chosen →
        chosen.length = c.effects.length) ∧
      determinism p = (classes.filter fun c => 1 < c.effects.length).map fun c =>
        .undetermined c.trigger c.effects.length) ∧
    (FoundAt (Prod.Lex (· < ·) PairBefore) (ModifiersClash ContextClash p) (traitConflicts p) ∧
      FoundAt (Prod.Lex (· < ·) PairBefore) (ModifiersClash DecayClash p)
      (modifierConflicts p) ∧
      FoundAt PairBefore (Clashing (fun a b : BehaviorRule => ActionClash a.action b.action)
      p.behaviors) (consistency p)) ∧
    (∀ trait, Mutual (ContextClash trait)) ∧ (∀ trait, Mutual (DecayClash trait)) ∧
    Mutual ActionClash := by
  have freeRules : ∀ r ∈ p.evolution, ∀ n ∈ r.numbers, n ≠ .nan := by
    intro r member n inRule
    apply free
    simp only [Personality.numbers, List.mem_append, List.mem_flatMap]
    exact .inr (.inr (.inr ⟨r, member, inRule⟩))
  refine ⟨⟨domainReferences_listed p, mem_references_iff p⟩, ⟨_, rfl, lists_repetitions _⟩,
    ?domains, determinism_eq freeRules,
    ⟨traitConflicts_found p, modifierConflicts_found p, consistency_found p⟩,
    mutual_contextClash, mutual_decayClash, mutual_actionClash⟩
  rw [Personality.validate_duplicates complete]
  exact lists_repetitions _

/-- A personality with three entries of each kind that have to do with one another. -/
def clashing : Personality where
  name := "p"
  traits := [
    ⟨"calm", .zero,
      [some (.when (some (.mood "m"))), some (.unless (some (.mood "m"))),
        some (.when (some (.mood "m")))]⟩,
    ⟨"calm", .zero, [some (.decay .zero .day), some (.decay (.ofRatio false 1 1) .day),
      some (.decay .zero .day)]⟩,
    ⟨"calm", .zero, []⟩]
  knowledge := [⟨"d", [], [⟨"x", "d", .zero, none⟩]⟩, ⟨"d", [], [⟨"d", "y", .zero, none⟩]⟩,
    ⟨"d", [], []⟩]
  behaviors := [⟨some .tired, some (.prefer "v")⟩, ⟨some .tired, some (.avoid "v")⟩,
    ⟨some .tired, some (.seek "v")⟩]
  evolution := [⟨some (.learns "t"), some (.unlock "y")⟩,
    ⟨some (.learns "t"), some (.unlock "x")⟩,
    ⟨some (.learns "t"), some (.unlock "y")⟩]

/-- Of three entries that have to do with one another, each name is reported once and each
two that clash are. -/
theorem findings_exact_clashing : clashing.Complete ∧ (∀ n ∈ clashing.numbers, n ≠ .nan) ∧
    Lists 0 (fun name => ¬ clashing.DeclaresDomain name) clashing.references ["x", "y"] ∧
    Lists 1 (fun _ => True) (clashing.knowledge.map Domain.name) ["d"] ∧
    determinism clashing = [.undetermined (some (.learns "t")) 2] ∧
    FoundAt PairBefore (Clashing (fun a b : BehaviorRule => ActionClash a.action b.action)
      clashing.behaviors)
      [.contradiction "v" (.prefer "v") (.avoid "v"),
      .contradiction "v" (.avoid "v") (.seek "v")] := by
  have complete : clashing.Complete :=
    (Validation.missing_eq_nil_iff clashing).mp (by decide +kernel)
  have free : ∀ n ∈ clashing.numbers, n ≠ .nan := by decide +kernel
  obtain ⟨⟨references, -⟩, -, domains, -, ⟨-, -, behaviors⟩, -⟩ := findings_exact complete free
  exact ⟨complete, free, references, domains, by decide +kernel, behaviors⟩

end Check

end Persona
