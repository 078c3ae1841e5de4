import Persona.Proofs.Grammar.Folding

/-!
# The grammar of documents

Which symbols are a phrase of the language, and what the phrase stands for. Each part of
a document has a relation with one rule for each way to write it; together they are the
grammar, stated without any reader of it.

Words are told from commands by where they stand. A rule for any word therefore leaves out
the words that have a rule of their own in the same place: `tired` with an argument is no
condition, although any other word with an argument is one. A name is free to be a
command, because what follows it decides.

A number is an expression with a finite value, and a count is an expression whose value is
a whole number of sixty-four bits. These are exactly the symbols that the readers of
numbers and of counts accept on their own.
-/

namespace Persona.Grammar

open Spelling (fixed word quoted call)

/-- An expression with a finite value. -/
structure NumberPhrase (e : List Spelling) (value : Binary64) : Prop where
  folds : Folds .sum e value
  finite : value.isFinite = true

/-- The count is the value of the number, and fits sixty-four bits. -/
structure Counts (value : Binary64) (n : Int) : Prop where
  whole : value.toInt? = some n
  lower : -0x8000000000000000 ≤ n
  upper : n < 0x8000000000000000

/-- An expression whose value is a whole number of sixty-four bits. -/
inductive CountPhrase (e : List Spelling) (n : Int) : Prop where
  | whole {value : Binary64} (number : NumberPhrase e value) (counts : Counts value n) :
      CountPhrase e n

/-- A name: a word, a string or a keyword. -/
inductive NamePhrase : Spelling → Text → Prop where
  | word (text : Text) : NamePhrase (word text) text
  | string (text : Text) : NamePhrase (quoted text) text
  | keyword {kind : Kind} (listed : kind ∈ Kind.keywords) : NamePhrase (fixed kind) kind.text

/-- A unit of time. -/
inductive UnitPhrase : Spelling → TimeUnit → Prop where
  | word {text : Text} {unit : TimeUnit} (named : TimeUnit.ofWord? text = some unit) :
      UnitPhrase (word text) unit

/-- A level of proficiency. -/
inductive LevelPhrase : Spelling → Level → Prop where
  | word {text : Text} {level : Level} (named : Level.ofWord? text = some level) :
      LevelPhrase (word text) level
  | string {text : Text} {level : Level} (named : Level.ofWord? text = some level) :
      LevelPhrase (quoted text) level

/-- A circumstance. -/
inductive ContextPhrase : List Spelling → Context → Prop where
  | string (value : Text) : ContextPhrase [quoted value] (.topic value)
  | topic (value : Text) : ContextPhrase [word "topic", fixed .colon, quoted value]
      (.topic value)
  | situation (value : Text) : ContextPhrase [word "situation", fixed .colon, quoted value]
      (.situation value)
  | time (value : Text) : ContextPhrase [word "time", fixed .colon, quoted value]
      (.timeOfDay value)
  | mood (value : Text) : ContextPhrase [word "mood", fixed .colon, quoted value] (.mood value)
  | emotion (value : Text) : ContextPhrase [word "emotion", fixed .colon, quoted value]
      (.mood value)

/-- A modifier of a trait. -/
inductive ModifierPhrase : List Spelling → Modifier → Prop where
  | decay {e : List Spelling} {u : Spelling} {rate : Binary64} {unit : TimeUnit}
      (rated : NumberPhrase e rate) (timed : UnitPhrase u unit) :
      ModifierPhrase (call (word "decay") (e ++ [fixed .divide, u])) (.decay rate unit)
  | when {e : List Spelling} {context : Context} (inner : ContextPhrase e context) :
      ModifierPhrase (call (fixed .when) e) (.when (some context))
  | unless {e : List Spelling} {context : Context} (inner : ContextPhrase e context) :
      ModifierPhrase (call (word "unless") e) (.unless (some context))
  | amplifies {n : Spelling} {e : List Spelling} {target : Text} {factor : Binary64}
      (named : NamePhrase n target) (scaled : NumberPhrase e factor) :
      ModifierPhrase (call (word "amplifies") (n :: fixed .comma :: e))
        (.amplifies target factor)
  | transformsTo {n : Spelling} {e f : List Spelling} {target : Text} {factor : Binary64}
      {periods : Int}
      (named : NamePhrase n target) (scaled : NumberPhrase e factor)
        (counted : CountPhrase f periods) :
      ModifierPhrase (call (word "transforms_to")
        (n :: fixed .comma :: (e ++ fixed .comma :: f)))
        (.transformsTo target factor periods)

/-- Modifiers with commas between them; there is at least one. -/
inductive ModifiersPhrase : List Spelling → List Modifier → Prop where
  | one {e : List Spelling} {m : Modifier} (first : ModifierPhrase e m) : ModifiersPhrase e [m]
  | more {e f : List Spelling} {m : Modifier} {ms : List Modifier} (first : ModifierPhrase e m)
      (others : ModifiersPhrase f ms) : ModifiersPhrase (e ++ fixed .comma :: f) (m :: ms)

/-- A trait. -/
inductive TraitPhrase : List Spelling → Trait → Prop where
  | plain {n : Spelling} {e : List Spelling} {called : Text} {strength : Binary64}
      (named : NamePhrase n called) (weighed : NumberPhrase e strength) :
      TraitPhrase (n :: fixed .colon :: e) ⟨called, strength, []⟩
  | modified {n : Spelling} {e f : List Spelling} {called : Text} {strength : Binary64}
      {ms : List Modifier}
      (named : NamePhrase n called) (weighed : NumberPhrase e strength)
        (changed : ModifiersPhrase f ms) :
      TraitPhrase (n :: fixed .colon :: (e ++ fixed .with :: f)) ⟨called, strength,
        ms.map some⟩

/-- The strength of a connection, and perhaps the rate at which it evolves. -/
inductive WeightPhrase : List Spelling → Binary64 → Option Binary64 → Prop where
  | constant {e : List Spelling} {strength : Binary64} (weighed : NumberPhrase e strength) :
      WeightPhrase e strength none
  | evolving {e f : List Spelling} {strength rate : Binary64}
      (weighed : NumberPhrase e strength)
      (rated : NumberPhrase f rate) : WeightPhrase (e ++ fixed .comma :: f) strength
        (some rate)

/-- What leads away from `source`: one connection, or one forth and one back. -/
inductive ConnectionPhrase (source : Text) : List Spelling → List Connection → Prop where
  | forth {n : Spelling} {e : List Spelling} {target : Text} {strength : Binary64}
      {rate : Option Binary64}
      (named : NamePhrase n target) (weighed : WeightPhrase e strength rate) :
      ConnectionPhrase source (fixed .arrow :: call n e) [⟨source, target, strength, rate⟩]
  | both {n : Spelling} {e : List Spelling} {target : Text} {strength : Binary64}
      {rate : Option Binary64}
      (named : NamePhrase n target) (weighed : WeightPhrase e strength rate) :
      ConnectionPhrase source (fixed .biArrow :: call n e)
        [⟨source, target, strength, rate⟩, ⟨target, source, strength, rate⟩]

/-- An entry of the domain called `owner`. -/
inductive DomainEntryPhrase (owner : Text) : List Spelling → DomainEntry → Prop where
  | topic {n l : Spelling} {called : Text} {level : Level} (named : NamePhrase n called)
      (graded : LevelPhrase l level) : DomainEntryPhrase owner [n, fixed .colon, l]
        (.topic ⟨called, level⟩)
  | own {e : List Spelling} {cs : List Connection} (leads : ConnectionPhrase owner e cs) :
      DomainEntryPhrase owner e (.connections cs)
  | foreign {n : Spelling} {e : List Spelling} {source : Text} {cs : List Connection}
      (named : NamePhrase n source) (leads : ConnectionPhrase source e cs) :
      DomainEntryPhrase owner (n :: e) (.connections cs)

/-- Entries with semicolons between them, and perhaps one after the last. -/
inductive ListPhrase {α : Type} (entry : List Spelling → α → Prop) :
    List Spelling → List α → Prop where
  | none : ListPhrase entry [] []
  | last {e : List Spelling} {value : α} (only : entry e value) : ListPhrase entry e [value]
  | more {e f : List Spelling} {value : α} {values : List α} (first : entry e value)
      (others : ListPhrase entry f values) : ListPhrase entry (e ++ fixed .semicolon :: f)
        (value :: values)

/-- What stands between braces. -/
def braced (inner : List Spelling) : List Spelling :=
  fixed .braceOpen :: (inner ++ [fixed .braceClose])

/-- A knowledge domain. -/
inductive DomainPhrase : List Spelling → Domain → Prop where
  | block {n : Spelling} {e : List Spelling} {called : Text} {all : List DomainEntry}
      (named : NamePhrase n called) (filled : ListPhrase (DomainEntryPhrase called) e all) :
      DomainPhrase (call (fixed .domain) [n] ++ braced e) ⟨called, topicsOf all,
        connectionsOf all⟩

/-- Domains, each with or without a semicolon after it. -/
inductive DomainsPhrase : List Spelling → List Domain → Prop where
  | none : DomainsPhrase [] []
  | plain {e f : List Spelling} {d : Domain} {ds : List Domain} (first : DomainPhrase e d)
      (others : DomainsPhrase f ds) : DomainsPhrase (e ++ f) (d :: ds)
  | separated {e f : List Spelling} {d : Domain} {ds : List Domain} (first : DomainPhrase e d)
      (others : DomainsPhrase f ds) : DomainsPhrase (e ++ fixed .semicolon :: f) (d :: ds)

/-- The words that are conditions of their own kind when they are called. -/
def conditionWords : List Text := ["tired", "motivated", "context", "time"]

/-- The condition of a behavior. -/
inductive ConditionPhrase : List Spelling → Condition → Prop where
  | above {n : Spelling} {e : List Spelling} {trait : Text} {threshold : Binary64}
      (named : NamePhrase n trait) (limited : NumberPhrase e threshold) :
      ConditionPhrase (n :: fixed .greater :: e) (.traitAbove trait threshold)
  | string (value : Text) : ConditionPhrase [quoted value] (.context value)
  | tired : ConditionPhrase [word "tired"] .tired
  | tiredCall : ConditionPhrase (call (word "tired") []) .tired
  | motivated : ConditionPhrase [word "motivated"] .motivated
  | motivatedCall : ConditionPhrase (call (word "motivated") []) .motivated
  | context (value : Text) : ConditionPhrase (call (word "context") [quoted value])
      (.context value)
  | time (start stop : Text) :
      ConditionPhrase (call (word "time") [quoted start, fixed .comma, quoted stop])
        (.timeRange start stop)
  | unknown {text : Text} (other : text ≠ "tired" ∧ text ≠ "motivated") :
      ConditionPhrase [word text] (.context text)
  | unknownCall {text : Text} (other : text ∉ conditionWords) :
      ConditionPhrase (call (word text) []) (.context text)
  | unknownCallOf {text : Text} (other : text ∉ conditionWords) (argument : Text) :
      ConditionPhrase (call (word text) [quoted argument]) (.context text)

/-- A string, with or without parentheses around it. -/
inductive LooseStringPhrase : List Spelling → Text → Prop where
  | bare (value : Text) : LooseStringPhrase [quoted value] value
  | enclosed (value : Text) :
      LooseStringPhrase [fixed .parenOpen, quoted value, fixed .parenClose] value

/-- The two spellings of the command that sets a style. -/
def styleWords : List Text := ["style", "set_style"]

/-- The action of a behavior. -/
inductive ActionPhrase : List Spelling → Action → Prop where
  | prefer {e : List Spelling} {value : Text} (wanted : LooseStringPhrase e value) :
      ActionPhrase (word "prefer" :: e) (.prefer value)
  | seek {e : List Spelling} {value : Text} (wanted : LooseStringPhrase e value) :
      ActionPhrase (word "seek" :: e) (.seek value)
  | avoid {e : List Spelling} {value : Text} (unwanted : LooseStringPhrase e value) :
      ActionPhrase (word "avoid" :: e) (.avoid value)
  | style {command : Text} {n : Spelling} {key : Text} (listed : command ∈ styleWords)
      (named : NamePhrase n key) (value : Text) :
      ActionPhrase (call (word command) [n, fixed .comma, quoted value]) (.setStyle key value)

/-- A behavior rule. -/
inductive BehaviorPhrase : List Spelling → BehaviorRule → Prop where
  | rule {e f : List Spelling} {condition : Condition} {action : Action}
      (holds : ConditionPhrase e condition) (acts : ActionPhrase f action) :
      BehaviorPhrase (fixed .when :: (e ++ fixed .arrow :: f)) ⟨some condition, some action⟩

/-- The words that are triggers of their own kind. -/
def triggerWords : List Text := ["learns", "time_in", "interactions", "feedback"]

/-- The trigger of an evolution rule. -/
inductive TriggerPhrase : List Spelling → Trigger → Prop where
  | learns {n : Spelling} {topic : Text} (named : NamePhrase n topic) :
      TriggerPhrase (call (word "learns") [n]) (.learns topic)
  | timeIn {n u : Spelling} {e : List Spelling} {domain : Text} {unit : TimeUnit}
      {periods : Int}
      (named : NamePhrase n domain) (counted : CountPhrase e periods)
        (timed : UnitPhrase u unit) :
      TriggerPhrase (call (word "time_in") (n :: fixed .comma :: (e ++ [u])))
        (.timeIn domain unit periods)
  | interactionsAbove {e : List Spelling} {times : Int} (counted : CountPhrase e times) :
      TriggerPhrase (word "interactions" :: fixed .greater :: e) (.interactions times)
  | interactions {e : List Spelling} {times : Int} (counted : CountPhrase e times) :
      TriggerPhrase (call (word "interactions") e) (.interactions times)
  | feedbackAbove {e : List Spelling} {score : Binary64} (scored : NumberPhrase e score) :
      TriggerPhrase (word "feedback" :: fixed .greater :: e) (.feedback score)
  | feedback {e : List Spelling} {score : Binary64} (scored : NumberPhrase e score) :
      TriggerPhrase (call (word "feedback") e) (.feedback score)
  | unknown {text : Text} {e : List Spelling} {score : Binary64} (other : text ∉ triggerWords)
      (scored : NumberPhrase e score) : TriggerPhrase (call (word text) e) (.feedback score)

/-- The effect of an evolution rule. -/
inductive EffectPhrase : List Spelling → Effect → Prop where
  | increase {n : Spelling} {e : List Spelling} {trait : Text} {delta : Binary64}
      (named : NamePhrase n trait) (moved : NumberPhrase e delta) :
      EffectPhrase (n :: fixed .plusAssign :: e) (.adjust trait delta)
  | decrease {n : Spelling} {e : List Spelling} {trait : Text} {delta : Binary64}
      (named : NamePhrase n trait) (moved : NumberPhrase e delta) :
      EffectPhrase (n :: fixed .minusAssign :: e) (.adjust trait delta.neg)
  | arrow {n m : Spelling} {e : List Spelling} {source target : Text} {strength : Binary64}
      (leaves : NamePhrase n source) (enters : NamePhrase m target)
        (weighed : NumberPhrase e strength) :
      EffectPhrase (n :: fixed .arrow :: call m e) (.connect source target strength)
  | unlock {n : Spelling} {domain : Text} (named : NamePhrase n domain) :
      EffectPhrase (call (word "unlock") [n]) (.unlock domain)
  | connect {n m : Spelling} {e : List Spelling} {source target : Text} {strength : Binary64}
      (leaves : NamePhrase n source) (enters : NamePhrase m target)
        (weighed : NumberPhrase e strength) :
      EffectPhrase (call (word "connect") (n :: fixed .comma :: m :: fixed .comma :: e))
        (.connect source target strength)
  | adopt {e : List Spelling} {rule : BehaviorRule} (behaves : BehaviorPhrase e rule) :
      EffectPhrase (word "new_behavior" :: braced e) (.adopt rule)
  | adoptSeparated {e : List Spelling} {rule : BehaviorRule}
      (behaves : BehaviorPhrase e rule) :
      EffectPhrase (word "new_behavior" :: braced (e ++ [fixed .semicolon])) (.adopt rule)

/-- An evolution rule. -/
inductive EvolutionPhrase : List Spelling → EvolutionRule → Prop where
  | rule {e f : List Spelling} {trigger : Trigger} {effect : Effect}
      (sets : TriggerPhrase e trigger) (changes : EffectPhrase f effect) :
      EvolutionPhrase (fixed .if :: (e ++ fixed .then :: f)) ⟨some trigger, some effect⟩

/-- A section, which may be left out. -/
inductive SectionPhrase {α : Type} (keyword : Kind) (body : List Spelling → List α → Prop) :
    List Spelling → List α → Prop where
  | absent : SectionPhrase keyword body [] []
  | present {e : List Spelling} {values : List α} (filled : body e values) :
      SectionPhrase keyword body (fixed keyword :: braced e) values

/-- A whole document, with the end of the input as its last symbol. -/
inductive DocumentPhrase : List Spelling → Personality → Prop where
  | document {n : Spelling} {t k b e : List Spelling} {called : Text} {traits : List Trait}
      {knowledge : List Domain} {behaviors : List BehaviorRule}
        {evolution : List EvolutionRule}
      (named : NamePhrase n called)
      (traitful : SectionPhrase .traits (ListPhrase TraitPhrase) t traits)
      (knowing : SectionPhrase .knowledge DomainsPhrase k knowledge)
      (behaving : SectionPhrase .behaviors (ListPhrase BehaviorPhrase) b behaviors)
      (evolving : SectionPhrase .evolution (ListPhrase EvolutionPhrase) e evolution) :
      DocumentPhrase (fixed .personality :: n ::
        (braced (t ++ (k ++ (b ++ e))) ++ [fixed .endOfInput]))
        ⟨called, traits, knowledge, behaviors, evolution⟩

/-- What the reader of numbers takes is a number. -/
theorem number_takes : Takes number fun used value _ =>
    NumberPhrase (used.map Token.symbol) value := by
  intro setting tokens
  refine TakesFrom.look fun t _ => TakesFrom.bind expression_takes ?_
  rintro used value left rfl ⟨folds, -, -⟩
  refine TakesFrom.ite (fun finite => TakesFrom.pure ?_) fun _ => TakesFrom.failAt t _
  rw [List.append_nil]
  exact ⟨folds, finite⟩

/-- A number is accepted wherever nothing goes on with it. -/
theorem number_accepts {e rest : List Spelling} {value : Binary64}
    (phrase : NumberPhrase e value)
    (stops : Stops 0 rest) : Accepts number (e ++ rest) (· = value) rest := by
  refine Accepts.bind Accepts.current fun _ _ =>
    Accepts.andThen (expression_accepts phrase.folds stops) ?_
  rw [if_pos phrase.finite]
  exact Accepts.pure rfl

/-- What the reader of counts takes is a count. -/
theorem count_takes : Takes count fun used n _ => CountPhrase (used.map Token.symbol) n := by
  intro setting tokens
  refine TakesFrom.look fun t _ => TakesFrom.bind number_takes ?_
  rintro used value left rfl phrase
  split
  · exact TakesFrom.failAt t _
  · rename_i n whole
    refine TakesFrom.ite (fun _ => TakesFrom.failAt t _) fun inRange => TakesFrom.pure ?_
    simp only [Bool.or_eq_true, decide_eq_true_eq, not_or, not_lt, not_le] at inRange
    rw [List.append_nil]
    exact .whole phrase ⟨whole, inRange.1, inRange.2⟩

/-- A count is accepted wherever nothing goes on with it. -/
theorem count_accepts {e rest : List Spelling} {n : Int} (phrase : CountPhrase e n)
    (stops : Stops 0 rest) : Accepts count (e ++ rest) (· = n) rest := by
  obtain @⟨value, number, counts⟩ := phrase
  have inRange : ¬ (decide (n < -0x8000000000000000) || decide (0x8000000000000000 ≤ n)) =
      true := by
    have lower := counts.lower
    have upper := counts.upper
    simp
    omega
  refine Accepts.bind Accepts.current fun _ _ =>
    Accepts.andThen (number_accepts number stops) ?_
  rw [counts.whole]
  dsimp only
  rw [if_neg inRange]
  exact Accepts.pure rfl

/-- The parser takes all of these symbols, where nothing follows and nesting is
not limited. -/
def Accepted {α : Type} (p : Parser α) (symbols : List Spelling) (value : α) : Prop :=
  ∃ last tokens, last.kind = .endOfInput ∧ tokens.map Token.symbol = symbols ∧
    (p ⟨last, 0, 0⟩ tokens).outcome = .ok (value, [])

/-- What a parser takes and accepts wherever nothing goes on with it is what it accepts
on its own. -/
theorem accepted_iff {α : Type} {p : Parser α} {phrase : List Spelling → α → Prop}
    (takes : Takes p fun used value _ => phrase (used.map Token.symbol) value)
    (accepts : ∀ {e value}, phrase e value → Accepts p (e ++ []) (· = value) [])
    {tokens : List Token} {value : α} :
    Accepted p (tokens.map Token.symbol) value ↔ phrase (tokens.map Token.symbol) value := by
  constructor
  · rintro ⟨last, others, ends, same, read⟩
    obtain ⟨used, split, holds⟩ := (takes _ others ends).2 value [] read
    rw [List.append_nil] at split
    rwa [← same, split]
  · intro holds
    have symbols : tokens.map Token.symbol = tokens.map Token.symbol ++ [] := by simp
    obtain ⟨-, _, left, read, rfl, none⟩ :=
      accepts holds ⟨⟨.endOfInput, [], 0, 0⟩, 0, 0⟩ tokens rfl le_rfl symbols
    refine ⟨⟨.endOfInput, [], 0, 0⟩, tokens, rfl, rfl, ?_⟩
    rw [read, List.map_eq_nil_iff.mp none]

/-- Numbers and counts are exactly what their readers accept on their own. -/
theorem accepted_number_and_count {tokens : List Token} {value : Binary64} {n : Int} :
    (Accepted number (tokens.map Token.symbol) value ↔
      NumberPhrase (tokens.map Token.symbol) value) ∧
    (Accepted count (tokens.map Token.symbol) n ↔ CountPhrase (tokens.map Token.symbol) n) :=
  ⟨accepted_iff number_takes fun phrase => number_accepts phrase (.inl (Nat.zero_le 0)),
    accepted_iff count_takes fun phrase => count_accepts phrase (.inl (Nat.zero_le 0))⟩

end Persona.Grammar
