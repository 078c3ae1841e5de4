import Persona.Proofs.Grammar.Derivation

/-!
# What derives is accepted

Every phrase of a part of a document is accepted by the parser of that part, which gives
the value the phrase stands for and stops behind it. No branch of a parser that looks one
token ahead takes a phrase away from the branch that should read it.

A phrase that ends in a number or in a list of modifiers has to know that nothing goes
on with it. Behind an entry stands a semicolon or a closing brace, behind a condition an
arrow and behind a trigger the word that announces its effect.
-/

namespace Persona.Grammar

open Grammar.Parser
open Spelling (fixed word quoted call)

variable {rest : List Spelling}

/-- A token whose symbol is a name is a name and no arrow. -/
theorem NamePhrase.shown {n : Spelling} {text : Text} {t : Token}
    (named : NamePhrase n text) (shown : t.symbol = n) :
    isName t = true ∧ nameOf t = text ∧ isArrow t = false := by
  cases named with
  | word =>
    obtain ⟨kind, rfl⟩ := Token.value_of_symbol shown rfl
    simp [isName, nameOf, isArrow, kind, Kind.isKeyword, Kind.keywords]
  | string =>
    obtain ⟨kind, rfl⟩ := Token.value_of_symbol shown rfl
    simp [isName, nameOf, isArrow, kind, Kind.isKeyword, Kind.keywords]
  | @keyword kind listed =>
    have isKind : t.kind = kind := congrArg Prod.fst shown
    have isKeyword : kind.isKeyword = true := by simpa [Kind.isKeyword] using listed
    have noArrow : kind ≠ .arrow ∧ kind ≠ .biArrow := by
      constructor <;> rintro rfl <;> exact absurd listed (by decide)
    simp [isName, nameOf, isArrow, isKind, isKeyword, noArrow]

/-- A name is accepted. -/
theorem name_accepts (role : Text) {n : Spelling} {text : Text} (named : NamePhrase n text) :
    Accepts (name role) (n :: rest) (· = text) rest := by
  refine Accepts.bind Accepts.current fun t shown => ?_
  obtain ⟨isNamed, called, -⟩ := named.shown shown
  rw [if_pos isNamed]
  exact Accepts.skip fun _ _ => Accepts.pure called

/-- A string is accepted. -/
theorem string_accepts (text : Text) :
    Accepts string (quoted text :: rest) (· = text) rest := by
  refine Accepts.bind (Accepts.expect rfl) fun t shown => Accepts.pure ?_
  exact (Token.value_of_symbol shown rfl).2

/-- A unit of time is accepted. -/
theorem timeUnit_accepts {u : Spelling} {unit : TimeUnit} (timed : UnitPhrase u unit) :
    Accepts timeUnit (u :: rest) (· = unit) rest := by
  cases timed with
  | @word text _ named =>
    refine Accepts.atOwn rfl fun start stop => ?_
    simp only [if_true, named]
    exact Accepts.skip fun _ _ => Accepts.pure rfl

/-- A level is accepted. -/
theorem level_accepts {l : Spelling} {graded : Level} (phrase : LevelPhrase l graded) :
    Accepts level (l :: rest) (· = graded) rest := by
  cases phrase with
  | @word text _ named | @string text _ named =>
    refine Accepts.atOwn rfl fun start stop => ?_
    simp only [decide_true, Bool.true_or, Bool.or_true, if_true, named]
    exact Accepts.skip fun _ _ => Accepts.pure rfl

/-- Nothing goes on with a number in front of a symbol that is no operator. -/
theorem stops_before {kind : Kind} (weak : bindingPower kind = 0) :
    Stops 0 (fixed kind :: rest) :=
  .inl (Nat.le_of_eq weak)

/-- A circumstance is accepted. -/
theorem context_accepts {e : List Spelling} {c : Context} (phrase : ContextPhrase e c) :
    Accepts context (e ++ rest) (· = c) rest := by
  cases phrase
  case string value =>
    exact Accepts.atOwn rfl fun _ _ => Accepts.skip fun _ _ => Accepts.pure rfl
  all_goals
    refine Accepts.atOwn rfl fun _ _ => Accepts.followedBy .colon rfl fun _ _ _ => ?_
    refine Accepts.skip fun _ _ => Accepts.skip fun _ _ =>
      Accepts.andThen (string_accepts _) ?_
    exact Accepts.pure rfl

/-- A modifier is accepted. -/
theorem modifier_accepts {e : List Spelling} {m : Modifier} (phrase : ModifierPhrase e m) :
    Accepts modifier (e ++ rest) (· = m) rest := by
  cases phrase with
  | @decay e u rate unit rated timed =>
    have ends : Stops 0 (fixed .divide :: u :: fixed .parenClose :: rest) := by
      obtain @⟨text, _, named⟩ := timed
      exact .inr ⟨text, _, rfl, by rw [named]; rfl⟩
    simp only [call, List.cons_append, List.append_assoc, List.nil_append]
    refine Accepts.atOwn rfl fun _ _ => Accepts.skip fun _ _ => Accepts.parenthesized ?_
    refine Accepts.andThen (number_accepts rated ends) ?_
    refine Accepts.bind (Accepts.expect rfl) fun _ _ =>
      Accepts.andThen (timeUnit_accepts timed) ?_
    exact Accepts.pure rfl
  | «when» inner =>
    simp only [call, List.cons_append, List.append_assoc, List.nil_append]
    refine Accepts.atKind fun _ _ _ => Accepts.skip fun _ _ => ?_
    exact Accepts.andThen (Accepts.parenthesized (context_accepts inner)) (Accepts.pure rfl)
  | «unless» inner =>
    simp only [call, List.cons_append, List.append_assoc, List.nil_append]
    refine Accepts.atOwn rfl fun _ _ => Accepts.skip fun _ _ => ?_
    exact Accepts.andThen (Accepts.parenthesized (context_accepts inner)) (Accepts.pure rfl)
  | amplifies named scaled =>
    simp only [call, List.cons_append, List.append_assoc, List.nil_append]
    refine Accepts.atOwn rfl fun _ _ => Accepts.skip fun _ _ => Accepts.parenthesized ?_
    refine Accepts.andThen (name_accepts "trait" named)
      (Accepts.bind (Accepts.expect rfl) fun _ _ => ?_)
    exact Accepts.andThen (number_accepts scaled (stops_before rfl)) (Accepts.pure rfl)
  | transformsTo named scaled counted =>
    simp only [call, List.cons_append, List.append_assoc, List.nil_append]
    refine Accepts.atOwn rfl fun _ _ => Accepts.skip fun _ _ => Accepts.parenthesized ?_
    refine Accepts.andThen (name_accepts "trait" named)
      (Accepts.bind (Accepts.expect rfl) fun _ _ => ?_)
    refine Accepts.andThen (number_accepts scaled (stops_before rfl)) ?_
    refine Accepts.bind (Accepts.expect rfl) fun _ _ => ?_
    exact Accepts.andThen (count_accepts counted (stops_before rfl)) (Accepts.pure rfl)

/-- Modifiers are accepted up to something other than a comma, with fuel for
every token. -/
theorem modifiersWithin_accepts {e : List Spelling} {ms : List Modifier}
    (phrase : ModifiersPhrase e ms)
    (stops : nextKind rest ≠ .comma) {fuel : Nat} (enough : e.length < fuel) :
    Accepts (modifiersWithin fuel) (e ++ rest) (· = ms) rest := by
  induction phrase generalizing fuel with
  | one first =>
    obtain ⟨fuel, rfl⟩ :=
      Nat.exists_eq_add_one_of_ne_zero (Nat.ne_of_gt (Nat.zero_lt_of_lt enough))
    refine Accepts.andThen (modifier_accepts first) (Accepts.andThen (Accepts.check .comma) ?_)
    rw [if_neg (by simpa using stops)]
    exact Accepts.pure rfl
  | @more e f m ms first others inductionHypothesis =>
    obtain ⟨fuel, rfl⟩ :=
      Nat.exists_eq_add_one_of_ne_zero (Nat.ne_of_gt (Nat.zero_lt_of_lt enough))
    have less : f.length < fuel := by
      simp only [List.length_append, List.length_cons] at enough
      omega
    simp only [List.append_assoc, List.cons_append]
    refine Accepts.andThen (modifier_accepts first) (Accepts.andThen (Accepts.check .comma) ?_)
    rw [if_pos (by rfl)]
    exact Accepts.skip fun _ _ => Accepts.andThen (inductionHypothesis less) (Accepts.pure rfl)

/-- Modifiers are accepted up to something other than a comma. -/
theorem modifiers_accepts {e : List Spelling} {ms : List Modifier}
    (phrase : ModifiersPhrase e ms)
    (stops : nextKind rest ≠ .comma) : Accepts modifiers (e ++ rest) (· = ms) rest := by
  refine Accepts.ofLength (p := fun length => modifiersWithin (length + 1)) ?_
  refine modifiersWithin_accepts phrase stops ?_
  rw [List.length_append]
  omega

/-- Here an entry ends. -/
def EndsEntry (rest : List Spelling) : Prop := nextKind rest = .semicolon ∨
    nextKind rest = .braceClose

/-- Where an entry ends, nothing goes on with a number. -/
theorem EndsEntry.stops (ends : EndsEntry rest) : Stops 0 rest := by
  rcases ends with is | is
  · exact .inl (by rw [is]; decide)
  · exact .inl (by rw [is]; decide)

/-- Where an entry ends, no other kind is next. -/
theorem EndsEntry.ne (ends : EndsEntry rest) {kind : Kind}
    (other : kind ≠ .semicolon ∧ kind ≠ .braceClose) :
    nextKind rest ≠ kind := by
  rintro rfl
  exact ends.elim other.1 other.2

/-- A trait is accepted where an entry ends. -/
theorem trait_accepts {e : List Spelling} {t : Trait} (phrase : TraitPhrase e t)
    (ends : EndsEntry rest) :
    Accepts trait (e ++ rest) (· = t) rest := by
  cases phrase with
  | plain named weighed =>
    refine Accepts.andThen (name_accepts "trait" named)
      (Accepts.bind (Accepts.expect rfl) fun _ _ => ?_)
    refine Accepts.andThen (number_accepts weighed ends.stops)
      (Accepts.andThen (Accepts.check .with) ?_)
    rw [if_neg (by simpa using ends.ne (by decide))]
    exact Accepts.pure rfl
  | modified named weighed changed =>
    simp only [List.cons_append, List.append_assoc]
    refine Accepts.andThen (name_accepts "trait" named)
      (Accepts.bind (Accepts.expect rfl) fun _ _ => ?_)
    refine Accepts.andThen (number_accepts weighed (stops_before rfl))
      (Accepts.andThen (Accepts.check .with) ?_)
    rw [if_pos (by rfl)]
    exact Accepts.skip fun _ _ =>
      Accepts.andThen (modifiers_accepts changed (ends.ne (by decide))) (Accepts.pure rfl)

/-- Whatever the first symbol is, it is taken for an arrow and the rest of a connection
is accepted. -/
theorem connection_accepts_from {source target : Text} {kind : Kind} {n : Spelling}
    {e : List Spelling} {strength : Binary64} {rate : Option Binary64}
    (named : NamePhrase n target) (weighed : WeightPhrase e strength rate) :
    Accepts (connection source) (fixed kind :: (call n e ++ rest)) (· = .connections
      (if kind = .biArrow then [⟨source, target, strength, rate⟩,
      ⟨target, source, strength, rate⟩]
        else [⟨source, target, strength, rate⟩])) rest := by
  simp only [call, List.cons_append, List.append_assoc, List.nil_append]
  refine Accepts.skip fun arrow shown => Accepts.andThen (name_accepts "domain" named) ?_
  have isKind : arrow.kind = kind := congrArg Prod.fst shown
  refine Accepts.bind (Accepts.expect rfl) fun _ _ => ?_
  cases weighed with
  | constant weighed =>
    refine Accepts.andThen (number_accepts weighed (stops_before rfl)) ?_
    refine Accepts.andThen (Accepts.andThen (Accepts.check .comma) (Accepts.pure rfl)) ?_
    exact Accepts.bind (Accepts.expect rfl) fun _ _ => Accepts.pure (by rw [isKind])
  | evolving weighed rated =>
    simp only [List.append_assoc, List.cons_append]
    refine Accepts.andThen (number_accepts weighed (stops_before rfl)) ?_
    refine Accepts.andThen (Accepts.andThen (Accepts.check .comma) (Accepts.skip fun _ _ =>
      Accepts.andThen (number_accepts rated (stops_before rfl)) (Accepts.pure rfl))) ?_
    exact Accepts.bind (Accepts.expect rfl) fun _ _ => Accepts.pure (by rw [isKind])

/-- Connections are accepted from their arrow on. -/
theorem connection_accepts {source : Text} {e : List Spelling} {cs : List Connection}
    (phrase : ConnectionPhrase source e cs) :
    Accepts (connection source) (e ++ rest) (· = .connections cs) rest := by
  cases phrase with
  | forth named weighed => exact connection_accepts_from named weighed
  | both named weighed => exact connection_accepts_from named weighed

/-- An entry of a domain is accepted. -/
theorem domainEntry_accepts {owner : Text} {e : List Spelling} {entry : DomainEntry}
    (phrase : DomainEntryPhrase owner e entry) :
    Accepts (domainEntry owner) (e ++ rest) (· = entry) rest := by
  cases phrase with
  | topic named graded =>
    refine Accepts.bind Accepts.current fun t shown => ?_
    rw [if_neg (by simp [(named.shown shown).2.2])]
    refine Accepts.andThen (name_accepts "topic" named) (Accepts.atKind fun _ _ _ => ?_)
    exact Accepts.skip fun _ _ => Accepts.andThen (level_accepts graded) (Accepts.pure rfl)
  | own leads =>
    have accepted : Accepts _ (_ ++ rest) _ rest := connection_accepts leads
    cases leads with
    | forth | both => exact Accepts.atKind fun _ _ _ => accepted
  | foreign named leads =>
    have accepted : Accepts _ (_ ++ rest) _ rest := connection_accepts leads
    refine Accepts.bind Accepts.current fun t shown => ?_
    rw [if_neg (by simp [(named.shown shown).2.2])]
    refine Accepts.andThen (name_accepts "topic" named) ?_
    cases leads with
    | forth | both => exact Accepts.atKind fun _ _ _ => accepted

/-- A word that is no state stands for the context it names. -/
theorem wordCondition_accepts_bare {t : Token} {s : Spelling}
    (other : t.value ≠ "tired" ∧ t.value ≠ "motivated") :
    Accepts (wordCondition t false) (s :: rest) (· = .context t.value) rest := by
  unfold wordCondition
  rw [if_neg (by simpa using other), if_neg (by simp), if_neg (by simp), if_neg (by simp)]
  exact Accepts.skip fun _ _ => Accepts.pure rfl

/-- Any other word that is called stands for the context it names, whatever
its argument. -/
theorem wordCondition_accepts_call {t : Token} {s : Spelling}
    (other : t.value ∉ conditionWords) (argument : Option Text) :
    Accepts (wordCondition t true) (s :: fixed .parenOpen ::
      (argument.toList.map quoted ++ fixed .parenClose :: rest)) (· = .context t.value)
      rest := by
  simp only [conditionWords, List.mem_cons, List.not_mem_nil, or_false, not_or] at other
  obtain ⟨notTired, notMotivated, notContext, notTime⟩ := other
  unfold wordCondition
  rw [if_neg (by simp [notTired, notMotivated]), if_neg (by simp [notContext]),
    if_neg (by simp [notTime]), if_pos rfl]
  refine Accepts.skip fun _ _ => Accepts.skip fun _ _ =>
    Accepts.andThen (Accepts.check .string) ?_
  cases argument with
  | none =>
    refine Accepts.bind (Accepts.expect rfl) fun _ _ => ?_
    exact Accepts.bind (Accepts.note rfl) fun _ _ => Accepts.pure rfl
  | some text =>
    refine Accepts.skip fun _ _ => Accepts.bind (Accepts.expect rfl) fun _ _ => ?_
    exact Accepts.bind (Accepts.note rfl) fun _ _ => Accepts.pure rfl

/-- A condition is accepted in front of an arrow. -/
theorem condition_accepts {e : List Spelling} {c : Condition} (phrase : ConditionPhrase e c)
    (arrow : nextKind rest = .arrow) : Accepts condition (e ++ rest) (· = c) rest := by
  have stops : Stops 0 rest := .inl (by rw [arrow]; decide)
  cases phrase with
  | above named limited =>
    refine Accepts.bind Accepts.current fun t shown =>
      Accepts.followedBy .greater rfl fun _ _ _ => ?_
    rw [if_pos (by simp [(named.shown shown).1])]
    refine Accepts.andThen (name_accepts "trait" named) (Accepts.skip fun _ _ => ?_)
    exact Accepts.andThen (number_accepts limited stops) (Accepts.pure rfl)
  | string value =>
    refine Accepts.atOwn rfl fun _ _ => Accepts.followedBy .arrow arrow fun _ _ _ => ?_
    exact Accepts.skip fun _ _ => Accepts.pure rfl
  | tired | motivated =>
    refine Accepts.atOwn rfl fun _ _ => Accepts.followedBy .arrow arrow fun _ _ _ => ?_
    exact Accepts.skip fun _ _ => Accepts.pure rfl
  | tiredCall | motivatedCall =>
    refine Accepts.atOwn rfl fun _ _ => Accepts.followedBy .parenOpen rfl fun _ _ _ => ?_
    exact Accepts.skip fun _ _ => Accepts.skip fun _ _ =>
      Accepts.bind (Accepts.expect rfl) fun _ _ => Accepts.pure rfl
  | context value =>
    refine Accepts.atOwn rfl fun _ _ => Accepts.followedBy .parenOpen rfl fun _ _ _ => ?_
    exact Accepts.skip fun _ _ =>
      Accepts.andThen (Accepts.parenthesized (string_accepts value)) (Accepts.pure rfl)
  | time start stop =>
    refine Accepts.atOwn rfl fun _ _ => Accepts.followedBy .parenOpen rfl fun _ _ _ => ?_
    refine Accepts.skip fun _ _ => Accepts.skip fun _ _ =>
      Accepts.andThen (string_accepts start) ?_
    refine Accepts.bind (Accepts.expect rfl) fun _ _ =>
      Accepts.andThen (string_accepts stop) ?_
    exact Accepts.bind (Accepts.expect rfl) fun _ _ => Accepts.pure rfl
  | @unknown text other =>
    refine Accepts.atOwn rfl fun start stop => Accepts.followedBy .arrow arrow fun _ _ _ => ?_
    exact wordCondition_accepts_bare other
  | unknownCall other =>
    refine Accepts.atOwn rfl fun _ _ => Accepts.followedBy .parenOpen rfl fun _ _ _ => ?_
    exact wordCondition_accepts_call other none
  | unknownCallOf other argument =>
    refine Accepts.atOwn rfl fun _ _ => Accepts.followedBy .parenOpen rfl fun _ _ _ => ?_
    exact wordCondition_accepts_call other (some argument)

/-- A string is accepted with and without parentheses around it. -/
theorem looseString_accepts {e : List Spelling} {value : Text}
    (phrase : LooseStringPhrase e value) :
    Accepts looseString (e ++ rest) (· = value) rest := by
  cases phrase with
  | bare => exact Accepts.andThen (Accepts.check .parenOpen) (string_accepts value)
  | enclosed =>
    exact Accepts.andThen (Accepts.check .parenOpen)
      (Accepts.parenthesized (string_accepts value))

/-- An action is accepted. -/
theorem action_accepts {e : List Spelling} {a : Action} (phrase : ActionPhrase e a) :
    Accepts action (e ++ rest) (· = a) rest := by
  cases phrase with
  | prefer wanted | seek wanted | avoid wanted =>
    refine Accepts.atOwn rfl fun _ _ => Accepts.skip fun _ _ => ?_
    exact Accepts.andThen (looseString_accepts wanted) (Accepts.pure rfl)
  | style listed named value =>
    have arguments {key : Text} {n : Spelling} (named : NamePhrase n key) :
        Accepts (parenthesized do
        let key ← name "style"
        let _ ← expect .comma
        let value ← string
        return Action.setStyle key value)
        (fixed .parenOpen :: n :: fixed .comma :: quoted value :: fixed .parenClose :: rest)
        (· = .setStyle key value) rest := by
      refine Accepts.parenthesized (Accepts.andThen (name_accepts "style" named) ?_)
      refine Accepts.bind (Accepts.expect rfl) fun _ _ => ?_
      exact Accepts.andThen (string_accepts value) (Accepts.pure rfl)
    simp only [styleWords, List.mem_cons, List.not_mem_nil, or_false] at listed
    rcases listed with rfl | rfl
    · exact Accepts.atOwn rfl fun _ _ => Accepts.skip fun _ _ => arguments named
    · exact Accepts.atOwn rfl fun _ _ => Accepts.skip fun _ _ => arguments named

/-- A behavior rule is accepted. -/
theorem behavior_accepts {e : List Spelling} {r : BehaviorRule} (phrase : BehaviorPhrase e r) :
    Accepts behavior (e ++ rest) (· = r) rest := by
  obtain ⟨holds, acts⟩ := phrase
  simp only [List.cons_append, List.append_assoc]
  refine Accepts.bind (Accepts.expect rfl) fun _ _ =>
    Accepts.andThen (condition_accepts holds rfl) ?_
  refine Accepts.bind (Accepts.expect rfl) fun _ _ => Accepts.andThen (action_accepts acts) ?_
  exact Accepts.pure rfl

section Compared

variable {α : Type} {p : Parser α} {e : List Spelling} {post : α → Prop}

/-- The argument of a comparison is accepted behind a greater sign. -/
theorem compared_accepts_above (accepts : Accepts p (e ++ rest) post rest) :
    Accepts (compared p) (fixed .greater :: (e ++ rest)) post rest :=
  Accepts.andThen (Accepts.check .greater) (Accepts.skip fun _ _ => accepts)

/-- The argument of a comparison is accepted between parentheses. -/
theorem compared_accepts_call
    (accepts : Accepts p (e ++ fixed .parenClose :: rest) post (fixed .parenClose :: rest)) :
    Accepts (compared p) (fixed .parenOpen :: (e ++ fixed .parenClose :: rest)) post rest :=
  Accepts.andThen (Accepts.check .greater) (Accepts.parenthesized accepts)

end Compared

/-- A trigger is accepted in front of the word that announces its effect. -/
theorem trigger_accepts {e : List Spelling} {t : Trigger} (phrase : TriggerPhrase e t)
    (announced : nextKind rest = .then) : Accepts trigger (e ++ rest) (· = t) rest := by
  have stops : Stops 0 rest := .inl (by rw [announced]; decide)
  cases phrase with
  | learns named =>
    refine Accepts.atOwn rfl fun _ _ => Accepts.skip fun _ _ => ?_
    exact Accepts.andThen (Accepts.parenthesized (name_accepts "topic" named))
      (Accepts.pure rfl)
  | @timeIn n u e domain unit periods named counted timed =>
    have ends : Stops 0 (u :: fixed .parenClose :: rest) := by
      obtain ⟨-⟩ := timed
      exact .inl (Nat.zero_le 0)
    simp only [call, List.cons_append, List.append_assoc, List.nil_append]
    refine Accepts.atOwn rfl fun _ _ => Accepts.skip fun _ _ => Accepts.parenthesized ?_
    refine Accepts.andThen (name_accepts "domain" named)
      (Accepts.bind (Accepts.expect rfl) fun _ _ => ?_)
    refine Accepts.andThen (count_accepts counted ends) ?_
    exact Accepts.andThen (timeUnit_accepts timed) (Accepts.pure rfl)
  | interactionsAbove counted =>
    refine Accepts.atOwn rfl fun _ _ => Accepts.skip fun _ _ => ?_
    exact Accepts.andThen (compared_accepts_above (count_accepts counted stops))
      (Accepts.pure rfl)
  | interactions counted =>
    simp only [call, List.cons_append, List.append_assoc, List.nil_append]
    refine Accepts.atOwn rfl fun _ _ => Accepts.skip fun _ _ => ?_
    exact Accepts.andThen (compared_accepts_call (count_accepts counted (stops_before rfl)))
      (Accepts.pure rfl)
  | feedbackAbove scored =>
    refine Accepts.atOwn rfl fun _ _ => Accepts.skip fun _ _ => ?_
    exact Accepts.andThen (compared_accepts_above (number_accepts scored stops))
      (Accepts.pure rfl)
  | feedback scored =>
    simp only [call, List.cons_append, List.append_assoc, List.nil_append]
    refine Accepts.atOwn rfl fun _ _ => Accepts.skip fun _ _ => ?_
    exact Accepts.andThen (compared_accepts_call (number_accepts scored (stops_before rfl)))
      (Accepts.pure rfl)
  | unknown other scored =>
    simp only [triggerWords, List.mem_cons, List.not_mem_nil, or_false, not_or] at other
    obtain ⟨notLearns, notTimeIn, notInteractions, notFeedback⟩ := other
    simp only [call, List.cons_append, List.append_assoc, List.nil_append]
    refine Accepts.atOwn rfl fun _ _ => ?_
    rw [if_pos rfl, if_neg notLearns, if_neg notTimeIn, if_neg notInteractions,
      if_neg notFeedback]
    refine Accepts.followedBy .parenOpen rfl fun _ _ _ => ?_
    refine Accepts.skip fun _ _ => ?_
    refine Accepts.andThen (Accepts.parenthesized
      (number_accepts scored (stops_before rfl))) ?_
    exact Accepts.bind (Accepts.note rfl) fun _ _ => Accepts.pure rfl

/-- A behavior between braces is accepted. -/
theorem adoption_accepts {e : List Spelling} {r : BehaviorRule} (phrase : BehaviorPhrase e r)
    {separator : List Spelling} (separated : separator = [] ∨ separator = [fixed .semicolon]) :
    Accepts adoption (fixed .braceOpen :: (e ++ (separator ++ fixed .braceClose :: rest)))
      (· = .adopt r) rest := by
  refine Accepts.nested (Accepts.bind (Accepts.expect rfl) fun _ _ =>
    Accepts.andThen (behavior_accepts phrase) ?_)
  refine Accepts.andThen (Accepts.check .semicolon) ?_
  rcases separated with rfl | rfl
  · exact Accepts.bind (Accepts.expect rfl) fun _ _ => Accepts.pure rfl
  · exact Accepts.skip fun _ _ => Accepts.bind (Accepts.expect rfl) fun _ _ => Accepts.pure rfl

/-- An effect is accepted where an entry ends. -/
theorem effect_accepts {e : List Spelling} {changed : Effect} (phrase : EffectPhrase e changed)
    (ends : EndsEntry rest) : Accepts effect (e ++ rest) (· = changed) rest := by
  cases phrase with
  | increase named moved | decrease named moved =>
    refine Accepts.bind Accepts.current fun t shown => Accepts.followedBy _ rfl fun _ _ _ => ?_
    rw [if_pos (by simp [(named.shown shown).1, nextKind, fixed])]
    refine Accepts.andThen (name_accepts "trait" named) (Accepts.skip fun operator shown => ?_)
    have isKind : operator.kind = _ := congrArg Prod.fst shown
    exact Accepts.andThen (number_accepts moved ends.stops)
      (Accepts.pure (by rw [isKind]; rfl))
  | arrow leaves enters weighed =>
    simp only [call, List.cons_append, List.append_assoc, List.nil_append]
    refine Accepts.bind Accepts.current fun t shown =>
      Accepts.followedBy .arrow rfl fun _ _ _ => ?_
    rw [if_neg (by simp), if_pos (by simp [(leaves.shown shown).1])]
    refine Accepts.andThen (name_accepts "domain" leaves) (Accepts.skip fun _ _ => ?_)
    refine Accepts.andThen (name_accepts "domain" enters) ?_
    exact Accepts.andThen (Accepts.parenthesized
      (number_accepts weighed (stops_before rfl))) (Accepts.pure rfl)
  | unlock named =>
    refine Accepts.atOwn rfl fun _ _ => Accepts.followedBy .parenOpen rfl fun _ _ _ => ?_
    refine Accepts.skip fun _ _ => ?_
    exact Accepts.andThen (Accepts.parenthesized (name_accepts "domain" named))
      (Accepts.pure rfl)
  | connect leaves enters weighed =>
    simp only [call, List.cons_append, List.append_assoc, List.nil_append]
    refine Accepts.atOwn rfl fun _ _ => Accepts.followedBy .parenOpen rfl fun _ _ _ => ?_
    refine Accepts.skip fun _ _ => Accepts.parenthesized ?_
    refine Accepts.andThen (name_accepts "domain" leaves)
      (Accepts.bind (Accepts.expect rfl) fun _ _ => ?_)
    refine Accepts.andThen (name_accepts "domain" enters)
      (Accepts.bind (Accepts.expect rfl) fun _ _ => ?_)
    exact Accepts.andThen (number_accepts weighed (stops_before rfl)) (Accepts.pure rfl)
  | adopt behaves =>
    simp only [braced, List.cons_append, List.append_assoc, List.nil_append]
    refine Accepts.atOwn rfl fun _ _ => Accepts.followedBy .braceOpen rfl fun _ _ _ => ?_
    exact Accepts.skip fun _ _ => adoption_accepts behaves (.inl rfl)
  | adoptSeparated behaves =>
    simp only [braced, List.cons_append, List.append_assoc, List.nil_append]
    refine Accepts.atOwn rfl fun _ _ => Accepts.followedBy .braceOpen rfl fun _ _ _ => ?_
    exact Accepts.skip fun _ _ => adoption_accepts behaves (.inr rfl)

/-- An evolution rule is accepted where an entry ends. -/
theorem evolutionRule_accepts {e : List Spelling} {r : EvolutionRule}
    (phrase : EvolutionPhrase e r)
    (ends : EndsEntry rest) : Accepts evolutionRule (e ++ rest) (· = r) rest := by
  obtain ⟨sets, changes⟩ := phrase
  simp only [List.cons_append, List.append_assoc]
  refine Accepts.bind (Accepts.expect rfl) fun _ _ =>
    Accepts.andThen (trigger_accepts sets rfl) ?_
  refine Accepts.bind (Accepts.expect rfl) fun _ _ =>
    Accepts.andThen (effect_accepts changes ends) ?_
  exact Accepts.pure rfl

end Persona.Grammar
