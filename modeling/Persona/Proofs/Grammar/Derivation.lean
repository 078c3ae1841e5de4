import Persona.Proofs.Grammar.Phrases

/-!
# What is read derives

Every parser of a part of a document takes a phrase for the value it gives: the grammar
leaves out nothing that the reader lets through. The proofs follow the parsers, and what
each branch has seen of the next tokens decides which rule of the grammar it is. Lists are
left out, because they can skip entries.
-/

namespace Persona.Grammar

open Grammar.Parser
open Spelling (fixed word quoted call)

/-- What the parser takes is a phrase for its value. -/
def Derives {α : Type} (p : Parser α) (phrase : List Spelling → α → Prop) : Prop :=
  Takes p fun used value _ => phrase (used.map Token.symbol) value

/-- What the parser takes is one token, whose symbol is a phrase for its value. -/
def DerivesOne {α : Type} (p : Parser α) (phrase : Spelling → α → Prop) : Prop :=
  Takes p fun used value _ => ∃ t : Token, used = [t] ∧ phrase t.symbol value

section Parentheses

variable {α : Type} {p : Parser α}

/-- What is read between parentheses is a phrase between them. -/
theorem Derives.inParens {phrase : List Spelling → α → Prop} (derives : Derives p phrase) :
    Derives (Parser.parenthesized p) fun e value =>
      ∃ inner, e = fixed .parenOpen :: (inner ++ [fixed .parenClose]) ∧ phrase inner value :=
  (Takes.parenthesized derives).imp fun _ _ _ ⟨inner, _, same, holds⟩ =>
    ⟨inner.map Token.symbol, same, holds⟩

/-- Arguments of a phrase, with the parentheses around them, are what follows its head. -/
theorem Derives.parenthesized {phrase : List Spelling → α → Prop} {head : Spelling}
    (derives : Derives p fun e value => phrase (call head e) value) :
    Derives (Parser.parenthesized p) fun e value => phrase (head :: e) value := by
  refine derives.inParens.imp ?_
  rintro used value - ⟨inner, same, holds⟩
  rw [same]
  exact holds

/-- The arguments of a phrase whose head was just taken. -/
theorem TakesFrom.arguments {phrase : List Spelling → α → Prop} {head : Token}
    {setting : Setting} {tokens : List Token}
    (derives : Derives p fun e value => phrase (call head.symbol e) value) :
    TakesFrom (Parser.parenthesized p) setting tokens fun used value _ =>
      phrase ((head :: used).map Token.symbol) value :=
  derives.parenthesized setting tokens

/-- What is read between parentheses as one token is between them. -/
theorem DerivesOne.inParens {phrase : Spelling → α → Prop} (derives : DerivesOne p phrase) :
    Derives (Parser.parenthesized p) fun e value =>
      ∃ s, e = [fixed .parenOpen, s, fixed .parenClose] ∧ phrase s value := by
  refine (Takes.parenthesized derives).imp ?_
  rintro used value - ⟨_, -, same, t, rfl, holds⟩
  exact ⟨t.symbol, same, holds⟩

end Parentheses

/-- A token that can be a name is one. -/
theorem NamePhrase.of_isName {t : Token} (named : isName t = true) :
    NamePhrase t.symbol (nameOf t) := by
  simp only [isName, Bool.or_eq_true, decide_eq_true_eq] at named
  rcases named with (isWord | isString) | isKeyword
  · have text : nameOf t = t.value := by simp [nameOf, isWord, Kind.isKeyword, Kind.keywords]
    rw [Token.symbol_word isWord, text]
    exact .word t.value
  · have text : nameOf t = t.value := by simp [nameOf, isString, Kind.isKeyword, Kind.keywords]
    rw [Token.symbol_quoted isString, text]
    exact .string t.value
  · have listed : t.kind ∈ Kind.keywords := by simpa [Kind.isKeyword] using isKeyword
    have bare : t.kind.carriesText = false := by
      revert listed
      cases t.kind <;> simp [Kind.keywords, Kind.carriesText]
    rw [Token.symbol_fixed rfl bare, nameOf, if_pos isKeyword]
    exact .keyword listed

/-- No name is the end. -/
theorem kind_of_isName {t : Token} (named : isName t = true) : t.kind ≠ .endOfInput := by
  intro isEnd
  simp [isName, isEnd, Kind.isKeyword, Kind.keywords] at named

/-- What is read as a name is one. -/
theorem name_derives (role : Text) : DerivesOne (name role) NamePhrase := by
  intro setting tokens
  refine TakesFrom.look fun t seen => TakesFrom.ite (fun named => ?_) fun _ =>
    TakesFrom.failAt t _
  exact TakesFrom.take seen (kind_of_isName named) fun rest _ =>
    TakesFrom.pure ⟨t, rfl, .of_isName named⟩

/-- What is read as a string is one. -/
theorem string_derives : DerivesOne string fun s text => s = quoted text := by
  intro setting tokens
  refine TakesFrom.bind (Takes.expect .string (by decide)) ?_
  rintro _ t left - ⟨rfl, isString⟩
  exact TakesFrom.pure ⟨t, rfl, Token.symbol_quoted isString⟩

/-- What is read as a unit of time is one. -/
theorem timeUnit_derives : DerivesOne timeUnit UnitPhrase := by
  intro setting tokens
  refine TakesFrom.look fun t seen => ?_
  by_cases isWord : t.kind = .name
  · simp only [isWord, if_true]
    split
    · rename_i unit named
      refine TakesFrom.take seen (by simp [isWord]) fun rest _ => TakesFrom.pure ⟨t, rfl, ?_⟩
      rw [Token.symbol_word isWord]
      exact .word named
    · exact TakesFrom.failAt t _
  · simp only [isWord, if_false]
    exact TakesFrom.failAt t _

/-- What is read as a level is one. -/
theorem level_derives : DerivesOne level LevelPhrase := by
  intro setting tokens
  refine TakesFrom.look fun t seen => ?_
  split
  · rename_i level named
    obtain ⟨isText, named⟩ := Option.ite_none_right_eq_some.mp named
    simp only [Bool.or_eq_true, decide_eq_true_eq] at isText
    rcases isText with isWord | isString
    · refine TakesFrom.take seen (by simp [isWord]) fun rest _ => TakesFrom.pure ⟨t, rfl, ?_⟩
      rw [Token.symbol_word isWord]
      exact .word named
    · refine TakesFrom.take seen (by simp [isString]) fun rest _ => TakesFrom.pure ⟨t, rfl, ?_⟩
      rw [Token.symbol_quoted isString]
      exact .string named
  · exact TakesFrom.failAt t _

/-- What is read as a circumstance is one. -/
theorem context_derives : Derives context ContextPhrase := by
  intro setting tokens
  refine TakesFrom.look fun t seen => TakesFrom.ite (fun isString => ?_) fun _ => ?_
  · refine TakesFrom.take seen (by simp [isString]) fun rest _ => TakesFrom.pure ?_
    simpa [Token.symbol_quoted isString] using ContextPhrase.string t.value
  · refine TakesFrom.lookAhead fun following ahead =>
      TakesFrom.ite (fun both => ?_) fun _ => TakesFrom.failAt t _
    obtain ⟨isWord, isColon⟩ : t.kind = .name ∧ following.kind = .colon := by simpa using both
    have colonSymbol := Token.symbol_fixed isColon rfl
    have wordSymbol := Token.symbol_word isWord
    refine TakesFrom.take seen (by simp [isWord]) fun rest begins => ?_
    subst begins
    refine TakesFrom.take ahead (by simp [isColon]) fun rest _ => ?_
    refine TakesFrom.bind string_derives ?_
    rintro _ value left - ⟨s, rfl, isString⟩
    -- Each of the five words is a rule of its own.
    refine TakesFrom.ite (fun is => TakesFrom.pure ?_) fun _ => ?_
    · simpa [wordSymbol, colonSymbol, isString, is] using ContextPhrase.topic value
    refine TakesFrom.ite (fun is => TakesFrom.pure ?_) fun _ => ?_
    · simpa [wordSymbol, colonSymbol, isString, is] using ContextPhrase.situation value
    refine TakesFrom.ite (fun is => TakesFrom.pure ?_) fun _ => ?_
    · simpa [wordSymbol, colonSymbol, isString, is] using ContextPhrase.time value
    refine TakesFrom.ite (fun is => TakesFrom.pure ?_) fun _ => TakesFrom.failAt t _
    simp only [Bool.or_eq_true, decide_eq_true_eq] at is
    rcases is with is | is
    · simpa [wordSymbol, colonSymbol, isString, is] using ContextPhrase.mood value
    · simpa [wordSymbol, colonSymbol, isString, is] using ContextPhrase.emotion value

/-- What is read as the arguments of a decay makes one. -/
theorem decay_derives : Derives decay fun e m => ModifierPhrase (word "decay" :: e) m := by
  refine Derives.parenthesized fun setting tokens => ?_
  refine TakesFrom.bind number_takes ?_
  rintro e rate left - rated
  refine TakesFrom.bind (Takes.fixed .divide (by decide) rfl) ?_
  rintro _ d left - ⟨rfl, isSlash⟩
  refine TakesFrom.bind timeUnit_derives ?_
  rintro _ unit left - ⟨u, rfl, timed⟩
  refine TakesFrom.pure ?_
  simpa [isSlash] using ModifierPhrase.decay rated timed

/-- What is read as the arguments of an amplification makes one. -/
theorem amplification_derives : Derives amplification fun e m =>
    ModifierPhrase (word "amplifies" :: e) m := by
  refine Derives.parenthesized fun setting tokens => ?_
  refine TakesFrom.bind (name_derives "trait") ?_
  rintro _ target left - ⟨n, rfl, named⟩
  refine TakesFrom.bind (Takes.fixed .comma (by decide) rfl) ?_
  rintro _ c left - ⟨rfl, isComma⟩
  refine TakesFrom.bind number_takes ?_
  rintro e factor left - scaled
  refine TakesFrom.pure ?_
  simpa [isComma] using ModifierPhrase.amplifies named scaled

/-- What is read as the arguments of a transformation makes one. -/
theorem transformation_derives :
    Derives transformation fun e m => ModifierPhrase (word "transforms_to" :: e) m := by
  refine Derives.parenthesized fun setting tokens => ?_
  refine TakesFrom.bind (name_derives "trait") ?_
  rintro _ target left - ⟨n, rfl, named⟩
  refine TakesFrom.bind (Takes.fixed .comma (by decide) rfl) ?_
  rintro _ c left - ⟨rfl, isComma⟩
  refine TakesFrom.bind number_takes ?_
  rintro e factor left - scaled
  refine TakesFrom.bind (Takes.fixed .comma (by decide) rfl) ?_
  rintro _ d left - ⟨rfl, isSecond⟩
  refine TakesFrom.bind count_takes ?_
  rintro f periods left - counted
  refine TakesFrom.pure ?_
  simpa [isComma, isSecond] using ModifierPhrase.transformsTo named scaled counted

/-- What is read as a modifier is one. -/
theorem modifier_derives : Derives modifier ModifierPhrase := by
  intro setting tokens
  refine TakesFrom.look fun t seen => TakesFrom.ite (fun isWhen => ?_) fun _ => ?_
  · refine TakesFrom.take seen (by simp [isWhen]) fun rest _ => ?_
    refine TakesFrom.bind context_derives.inParens ?_
    rintro _ inner left - ⟨e, same, phrase⟩
    refine TakesFrom.pure ?_
    simpa [Token.symbol_fixed isWhen rfl, same, call] using ModifierPhrase.when phrase
  refine TakesFrom.ite (fun isWord => ?_) fun _ => TakesFrom.failAt t _
  have there : t.kind ≠ .endOfInput := by simp [isWord]
  have symbol := Token.symbol_word isWord
  refine TakesFrom.ite (fun is => ?_) fun _ => ?_
  · rw [is] at symbol
    exact TakesFrom.take seen there fun rest _ =>
      (decay_derives setting rest).imp fun _ _ _ => by simp [symbol]
  refine TakesFrom.ite (fun is => ?_) fun _ => ?_
  · rw [is] at symbol
    refine TakesFrom.take seen there fun rest _ => TakesFrom.bind context_derives.inParens ?_
    rintro _ inner left - ⟨e, same, phrase⟩
    refine TakesFrom.pure ?_
    simpa [symbol, same, call] using ModifierPhrase.unless phrase
  refine TakesFrom.ite (fun is => ?_) fun _ => TakesFrom.ite (fun is => ?_) fun _ =>
    TakesFrom.failAt t _
  · rw [is] at symbol
    exact TakesFrom.take seen there fun rest _ =>
      (amplification_derives setting rest).imp fun _ _ _ => by simp [symbol]
  · rw [is] at symbol
    exact TakesFrom.take seen there fun rest _ =>
      (transformation_derives setting rest).imp fun _ _ _ => by simp [symbol]

/-- What is read as modifiers within some fuel is modifiers. -/
theorem modifiersWithin_derives (fuel : Nat) :
    Derives (modifiersWithin fuel) ModifiersPhrase := by
  induction fuel with
  | zero =>
    intro setting tokens
    exact TakesFrom.look fun t _ => TakesFrom.failAt t _
  | succ fuel inductionHypothesis =>
    intro setting tokens
    refine TakesFrom.bind modifier_derives ?_
    rintro e m left - first
    refine TakesFrom.check fun t seen => TakesFrom.ite (fun isComma => ?_) fun _ => ?_
    · have isComma : t.kind = .comma := by simpa using isComma
      refine TakesFrom.take seen (by simp [isComma]) fun rest _ =>
        TakesFrom.bind inductionHypothesis ?_
      rintro f ms left - others
      refine TakesFrom.pure ?_
      simpa [Token.symbol_fixed isComma rfl] using ModifiersPhrase.more first others
    · refine TakesFrom.pure ?_
      simpa using ModifiersPhrase.one first

/-- What is read as modifiers is modifiers. -/
theorem modifiers_derives : Derives modifiers ModifiersPhrase :=
  fun setting tokens ends => modifiersWithin_derives (tokens.length + 1) setting tokens ends

/-- What is read as a trait is one. -/
theorem trait_derives : Derives trait TraitPhrase := by
  intro setting tokens
  refine TakesFrom.bind (name_derives "trait") ?_
  rintro _ called left - ⟨n, rfl, named⟩
  refine TakesFrom.bind (Takes.fixed .colon (by decide) rfl) ?_
  rintro _ c left - ⟨rfl, isColon⟩
  refine TakesFrom.bind number_takes ?_
  rintro e strength left - weighed
  refine TakesFrom.check fun t seen => TakesFrom.ite (fun isWith => ?_) fun _ => ?_
  · have isWith : t.kind = .with := by simpa using isWith
    refine TakesFrom.take seen (by simp [isWith]) fun rest _ =>
      TakesFrom.bind modifiers_derives ?_
    rintro f ms left - changed
    refine TakesFrom.pure ?_
    simpa [isColon, Token.symbol_fixed isWith rfl] using TraitPhrase.modified named
      weighed changed
  · refine TakesFrom.pure ?_
    simpa [isColon] using TraitPhrase.plain named weighed

/-- What is read from an arrow on is connections. -/
theorem connection_derives (source : Text) {setting : Setting} {tokens : List Token}
    {t : Token} (seen : Sees setting tokens t) (pointing : isArrow t = true) :
    TakesFrom (connection source) setting tokens fun used entry _ =>
      ∃ cs, entry = .connections cs ∧ ConnectionPhrase source (used.map Token.symbol) cs := by
  simp only [isArrow, Bool.or_eq_true, decide_eq_true_eq] at pointing
  refine TakesFrom.take seen (by rcases pointing with is | is <;> simp [is]) fun rest _ => ?_
  refine TakesFrom.bind (name_derives "domain") ?_
  rintro _ target left - ⟨n, rfl, named⟩
  refine TakesFrom.bind (Takes.fixed .parenOpen (by decide) rfl) ?_
  rintro _ o left - ⟨rfl, isOpen⟩
  refine TakesFrom.bind number_takes ?_
  rintro e strength left - weighed
  refine TakesFrom.bind (m := fun used rate _ =>
    WeightPhrase ((e ++ used).map Token.symbol) strength rate) ?_ ?_
  · intro setting tokens
    refine TakesFrom.check fun comma seen => TakesFrom.ite (fun isComma => ?_) fun _ => ?_
    · have isComma : comma.kind = .comma := by simpa using isComma
      refine TakesFrom.take seen (by simp [isComma]) fun rest _ =>
        TakesFrom.bind number_takes ?_
      rintro f rate left - rated
      refine TakesFrom.pure ?_
      simpa [Token.symbol_fixed isComma rfl] using WeightPhrase.evolving weighed rated
    · refine TakesFrom.pure ?_
      simpa using WeightPhrase.constant weighed
  · rintro f rate left - weighed
    refine TakesFrom.bind (Takes.fixed .parenClose (by decide) rfl) ?_
    rintro _ c left - ⟨rfl, isClose⟩
    refine TakesFrom.pure ⟨_, rfl, ?_⟩
    rcases pointing with is | is
    · simpa [is, Token.symbol_fixed is rfl, isOpen, isClose, call] using
        (ConnectionPhrase.forth named weighed : ConnectionPhrase source _ _)
    · simpa [is, Token.symbol_fixed is rfl, isOpen, isClose, call] using
        (ConnectionPhrase.both named weighed : ConnectionPhrase source _ _)

/-- What is read as an entry of a domain is one. -/
theorem domainEntry_derives (owner : Text) :
    Derives (domainEntry owner) (DomainEntryPhrase owner) := by
  intro setting tokens
  refine TakesFrom.look fun t seen => TakesFrom.ite (fun pointing => ?_) fun _ => ?_
  · refine (connection_derives owner seen pointing).imp ?_
    rintro used _ - ⟨cs, rfl, leads⟩
    exact .own leads
  refine TakesFrom.bind (name_derives "topic") ?_
  rintro _ called left - ⟨n, rfl, named⟩
  refine TakesFrom.look fun following seen => TakesFrom.ite (fun isColon => ?_) fun _ => ?_
  · refine TakesFrom.take seen (by simp [isColon]) fun rest _ =>
      TakesFrom.bind level_derives ?_
    rintro _ level left - ⟨l, rfl, graded⟩
    refine TakesFrom.pure ?_
    simpa [Token.symbol_fixed isColon rfl] using
      (DomainEntryPhrase.topic named graded : DomainEntryPhrase owner _ _)
  · refine TakesFrom.ite (fun pointing => ?_) fun _ => TakesFrom.failAt t _
    refine (connection_derives called seen pointing).imp ?_
    rintro used _ - ⟨cs, rfl, leads⟩
    simpa using (DomainEntryPhrase.foreign named leads : DomainEntryPhrase owner _ _)

section Words

variable {t following : Token} {setting : Setting} {tokens : List Token}

/-- What is read as a condition from a word on is one, where the word is not called. -/
theorem wordCondition_derives_bare (isWord : t.kind = .name) (seen : Sees setting tokens t) :
    TakesFrom (wordCondition t false) setting tokens fun used c _ =>
      ConditionPhrase (used.map Token.symbol) c := by
  have there : t.kind ≠ .endOfInput := by simp [isWord]
  have symbol := Token.symbol_word isWord
  refine TakesFrom.ite (fun isState => ?_) fun notState => ?_
  · refine TakesFrom.take seen there fun rest _ => TakesFrom.pure ?_
    simp only [Bool.or_eq_true, decide_eq_true_eq] at isState
    rcases isState with is | is
    · simpa [symbol, is] using ConditionPhrase.tired
    · have other : ("motivated" : Text) ≠ "tired" := by decide
      simpa [symbol, is, other] using ConditionPhrase.motivated
  · have other : t.value ≠ "tired" ∧ t.value ≠ "motivated" := by simpa using notState
    rw [if_neg (by simp), if_neg (by simp), if_neg (by simp)]
    refine TakesFrom.take seen there fun rest _ => TakesFrom.pure ?_
    simpa [symbol] using ConditionPhrase.unknown other

/-- What is read as a condition from a word on is one, where the word is called. -/
theorem wordCondition_derives_call (isWord : t.kind = .name) (seen : Sees setting tokens t)
    (isOpen : following.kind = .parenOpen) (ahead : Sees setting tokens.tail following) :
    TakesFrom (wordCondition t true) setting tokens fun used c _ =>
      ConditionPhrase (used.map Token.symbol) c := by
  have there : t.kind ≠ .endOfInput := by simp [isWord]
  have more : following.kind ≠ .endOfInput := by simp [isOpen]
  have symbol := Token.symbol_word isWord
  have opens := Token.symbol_fixed isOpen rfl
  refine TakesFrom.ite (fun isState => ?_) fun notState => ?_
  · simp only [Bool.or_eq_true, decide_eq_true_eq] at isState
    refine TakesFrom.take seen there fun rest begins => ?_
    subst begins
    refine TakesFrom.take ahead more fun rest _ => ?_
    refine TakesFrom.bind (Takes.fixed .parenClose (by decide) rfl) ?_
    rintro _ c left - ⟨rfl, isClose⟩
    refine TakesFrom.pure ?_
    rcases isState with is | is
    · simpa [symbol, is, opens, isClose, call] using ConditionPhrase.tiredCall
    · have other : ("motivated" : Text) ≠ "tired" := by decide
      simpa [symbol, is, opens, isClose, call, other] using ConditionPhrase.motivatedCall
  refine TakesFrom.ite (fun both => ?_) fun notContext => ?_
  · have is : t.value = "context" := by simpa using both
    refine TakesFrom.take seen there fun rest _ => TakesFrom.bind string_derives.inParens ?_
    rintro _ value left - ⟨s, same, isString⟩
    refine TakesFrom.pure ?_
    simpa [symbol, is, same, isString, call] using ConditionPhrase.context value
  refine TakesFrom.ite (fun both => ?_) fun notTime => ?_
  · have is : t.value = "time" := by simpa using both
    refine TakesFrom.take seen there fun rest begins => ?_
    subst begins
    refine TakesFrom.take ahead more fun rest _ => TakesFrom.bind string_derives ?_
    rintro _ start left - ⟨s, rfl, isString⟩
    refine TakesFrom.bind (Takes.fixed .comma (by decide) rfl) ?_
    rintro _ c left - ⟨rfl, isComma⟩
    refine TakesFrom.bind string_derives ?_
    rintro _ stop left - ⟨r, rfl, isSecond⟩
    refine TakesFrom.bind (Takes.fixed .parenClose (by decide) rfl) ?_
    rintro _ d left - ⟨rfl, isClose⟩
    refine TakesFrom.pure ?_
    simpa [symbol, is, opens, isString, isComma, isSecond, isClose, call]
      using ConditionPhrase.time start stop
  -- Any other word, called with at most a string.
  have other : t.value ∉ conditionWords := by
    simp only [Bool.or_eq_true, Bool.and_true, decide_eq_true_eq, not_or]
      at notState notContext notTime
    simp [conditionWords, notState, notContext, notTime]
  refine TakesFrom.take seen there fun rest begins => ?_
  subst begins
  refine TakesFrom.take ahead more fun rest _ => TakesFrom.check fun a seen => ?_
  refine TakesFrom.ite (fun isArgument => ?_) fun _ => ?_
  · have isArgument : a.kind = .string := by simpa using isArgument
    refine TakesFrom.take seen (by simp [isArgument]) fun rest _ => ?_
    refine TakesFrom.bind (Takes.fixed .parenClose (by decide) rfl) ?_
    rintro _ d left - ⟨rfl, isClose⟩
    refine TakesFrom.bind (Takes.note rfl) ?_
    rintro _ _ left - rfl
    refine TakesFrom.pure ?_
    simpa [symbol, opens, Token.symbol_quoted isArgument, isClose, call] using
      ConditionPhrase.unknownCallOf other a.value
  · refine TakesFrom.bind (Takes.fixed .parenClose (by decide) rfl) ?_
    rintro _ d left - ⟨rfl, isClose⟩
    refine TakesFrom.bind (Takes.note rfl) ?_
    rintro _ _ left - rfl
    refine TakesFrom.pure ?_
    simpa [symbol, opens, isClose, call] using ConditionPhrase.unknownCall other

/-- What is read as a condition from a word on is one. -/
theorem wordCondition_derives (isWord : t.kind = .name) (seen : Sees setting tokens t)
    (ahead : Sees setting tokens.tail following) :
    TakesFrom (wordCondition t (following.kind = .parenOpen)) setting tokens fun used c _ =>
      ConditionPhrase (used.map Token.symbol) c := by
  by_cases isOpen : following.kind = .parenOpen
  · rw [decide_eq_true isOpen]
    exact wordCondition_derives_call isWord seen isOpen ahead
  · rw [decide_eq_false isOpen]
    exact wordCondition_derives_bare isWord seen

end Words

/-- What is read as a condition is one. -/
theorem condition_derives : Derives condition ConditionPhrase := by
  intro setting tokens
  refine TakesFrom.look fun t seen => TakesFrom.lookAhead fun following ahead => ?_
  refine TakesFrom.ite (fun both => ?_) fun _ => ?_
  · obtain ⟨-, isGreater⟩ := Bool.and_eq_true_iff.mp both
    have isGreater : following.kind = .greater := by simpa using isGreater
    refine TakesFrom.bind (name_derives "trait") ?_
    rintro _ called left rfl ⟨n, rfl, named⟩
    refine TakesFrom.take ahead (by simp [isGreater]) fun rest _ =>
      TakesFrom.bind number_takes ?_
    rintro e threshold left - limited
    refine TakesFrom.pure ?_
    simpa [Token.symbol_fixed isGreater rfl] using ConditionPhrase.above named limited
  refine TakesFrom.ite (fun isString => ?_) fun _ => ?_
  · refine TakesFrom.take seen (by simp [isString]) fun rest _ => TakesFrom.pure ?_
    simpa [Token.symbol_quoted isString] using ConditionPhrase.string t.value
  · exact TakesFrom.ite (fun isWord => wordCondition_derives isWord seen ahead) fun _ =>
      TakesFrom.failAt t _

/-- What is read as a string that may have parentheses around it is one. -/
theorem looseString_derives : Derives looseString LooseStringPhrase := by
  intro setting tokens
  refine TakesFrom.check fun t _ => TakesFrom.ite (fun _ => ?_) fun _ => ?_
  · refine (string_derives.inParens setting tokens).imp ?_
    rintro used value - ⟨s, same, isString⟩
    simpa [same, isString] using LooseStringPhrase.enclosed value
  · refine (string_derives setting tokens).imp ?_
    rintro _ value - ⟨s, rfl, isString⟩
    simpa [isString] using LooseStringPhrase.bare value

/-- What is read as an action is one. -/
theorem action_derives : Derives action ActionPhrase := by
  intro setting tokens
  refine TakesFrom.look fun t seen => TakesFrom.ite (fun isWord => ?_) fun _ =>
    TakesFrom.failAt t _
  have there : t.kind ≠ .endOfInput := by simp [isWord]
  have symbol := Token.symbol_word isWord
  -- Three of the commands differ only in the action they make of their string.
  have made {make : Text → Action}
      (phrased : ∀ {e value}, LooseStringPhrase e value →
        ActionPhrase (t.symbol :: e) (make value)) :
      TakesFrom (do let _ ← advance; let value ← looseString; return make value) setting tokens
        fun used a _ => ActionPhrase (used.map Token.symbol) a := by
    refine TakesFrom.take seen there fun rest _ => TakesFrom.bind looseString_derives ?_
    rintro e value left - loose
    refine TakesFrom.pure ?_
    simpa using phrased loose
  refine TakesFrom.ite (fun is => made fun wanted => ?_) fun _ => ?_
  · rw [symbol, is]
    exact .prefer wanted
  refine TakesFrom.ite (fun is => made fun wanted => ?_) fun _ => ?_
  · rw [symbol, is]
    exact .seek wanted
  refine TakesFrom.ite (fun is => made fun unwanted => ?_) fun _ => ?_
  · rw [symbol, is]
    exact .avoid unwanted
  refine TakesFrom.ite (fun is => ?_) fun _ => TakesFrom.failAt t _
  have listed : t.value ∈ styleWords := by simpa [styleWords] using is
  refine TakesFrom.take seen there fun rest _ => TakesFrom.arguments fun setting tokens => ?_
  refine TakesFrom.bind (name_derives "style") ?_
  rintro _ key left - ⟨n, rfl, named⟩
  refine TakesFrom.bind (Takes.fixed .comma (by decide) rfl) ?_
  rintro _ c left - ⟨rfl, isComma⟩
  refine TakesFrom.bind string_derives ?_
  rintro _ value left - ⟨s, rfl, isString⟩
  refine TakesFrom.pure ?_
  simpa [symbol, isComma, isString] using ActionPhrase.style listed named value

/-- What is read as a behavior rule is one. -/
theorem behavior_derives : Derives behavior BehaviorPhrase := by
  intro setting tokens
  refine TakesFrom.bind (Takes.fixed .when (by decide) rfl) ?_
  rintro _ w left - ⟨rfl, isWhen⟩
  refine TakesFrom.bind condition_derives ?_
  rintro e condition left - holds
  refine TakesFrom.bind (Takes.fixed .arrow (by decide) rfl) ?_
  rintro _ a left - ⟨rfl, isArrow⟩
  refine TakesFrom.bind action_derives ?_
  rintro f action left - acts
  refine TakesFrom.pure ?_
  simpa [isWhen, isArrow] using BehaviorPhrase.rule holds acts

/-- What is read as the argument of a comparison follows a greater sign or stands in
parentheses. -/
theorem compared_derives {α : Type} {p : Parser α} {phrase : List Spelling → α → Prop}
    (derives : Derives p phrase) :
    Derives (compared p) fun e value => ∃ inner, phrase inner value ∧
      (e = fixed .greater :: inner ∨
      e = fixed .parenOpen :: (inner ++ [fixed .parenClose])) := by
  intro setting tokens
  refine TakesFrom.check fun t seen => TakesFrom.ite (fun isGreater => ?_) fun _ => ?_
  · have isGreater : t.kind = .greater := by simpa using isGreater
    refine TakesFrom.take seen (by simp [isGreater]) fun rest _ =>
      (derives setting rest).imp ?_
    intro used value _ holds
    exact ⟨_, holds, .inl (by simp [Token.symbol_fixed isGreater rfl])⟩
  · refine (derives.inParens setting tokens).imp ?_
    rintro used value - ⟨inner, same, holds⟩
    exact ⟨inner, holds, .inr same⟩

/-- What is read as a trigger is one. -/
theorem trigger_derives : Derives trigger TriggerPhrase := by
  intro setting tokens
  refine TakesFrom.look fun t seen => TakesFrom.ite (fun isWord => ?_) fun _ =>
    TakesFrom.failAt t _
  have there : t.kind ≠ .endOfInput := by simp [isWord]
  have symbol := Token.symbol_word isWord
  refine TakesFrom.ite (fun is => ?_) fun notLearns => ?_
  · refine TakesFrom.take seen there fun rest _ =>
      TakesFrom.bind (name_derives "topic").inParens ?_
    rintro _ topic left - ⟨n, same, named⟩
    refine TakesFrom.pure ?_
    simpa [symbol, is, same, call] using TriggerPhrase.learns named
  refine TakesFrom.ite (fun is => ?_) fun notTimeIn => ?_
  · refine TakesFrom.take seen there fun rest _ => TakesFrom.arguments fun setting tokens => ?_
    refine TakesFrom.bind (name_derives "domain") ?_
    rintro _ domain left - ⟨n, rfl, named⟩
    refine TakesFrom.bind (Takes.fixed .comma (by decide) rfl) ?_
    rintro _ c left - ⟨rfl, isComma⟩
    refine TakesFrom.bind count_takes ?_
    rintro e periods left - counted
    refine TakesFrom.bind timeUnit_derives ?_
    rintro _ unit left - ⟨u, rfl, timed⟩
    refine TakesFrom.pure ?_
    simpa [symbol, is, isComma] using TriggerPhrase.timeIn named counted timed
  refine TakesFrom.ite (fun is => ?_) fun notInteractions => ?_
  · refine TakesFrom.take seen there fun rest _ =>
      TakesFrom.bind (compared_derives count_takes) ?_
    rintro _ times left - ⟨e, counted, same | same⟩
    · refine TakesFrom.pure ?_
      simpa [symbol, is, same] using TriggerPhrase.interactionsAbove counted
    · refine TakesFrom.pure ?_
      simpa [symbol, is, same, call] using TriggerPhrase.interactions counted
  refine TakesFrom.ite (fun is => ?_) fun notFeedback => ?_
  · refine TakesFrom.take seen there fun rest _ =>
      TakesFrom.bind (compared_derives number_takes) ?_
    rintro _ score left - ⟨e, scored, same | same⟩
    · refine TakesFrom.pure ?_
      simpa [symbol, is, same] using TriggerPhrase.feedbackAbove scored
    · refine TakesFrom.pure ?_
      simpa [symbol, is, same, call] using TriggerPhrase.feedback scored
  refine TakesFrom.lookAhead fun following _ => TakesFrom.ite (fun _ => ?_) fun _ =>
    TakesFrom.failAt t _
  have other : t.value ∉ triggerWords := by
    simp [triggerWords, notLearns, notTimeIn, notInteractions, notFeedback]
  refine TakesFrom.take seen there fun rest _ =>
    TakesFrom.bind (Derives.inParens number_takes) ?_
  rintro _ score left - ⟨e, same, scored⟩
  refine TakesFrom.bind (Takes.note rfl) ?_
  rintro _ _ left - rfl
  refine TakesFrom.pure ?_
  simpa [symbol, same, call] using TriggerPhrase.unknown other scored

/-- What is read as an adjustment from the name on is one. -/
theorem adjustment_derives {setting : Setting} {tokens : List Token} {operator : Token}
    (ahead : Sees setting tokens.tail operator)
    (assigns : operator.kind = .plusAssign ∨ operator.kind = .minusAssign) :
    TakesFrom adjustment setting tokens fun used effect _ =>
      EffectPhrase (used.map Token.symbol) effect := by
  refine TakesFrom.bind (name_derives "trait") ?_
  rintro _ called left rfl ⟨n, rfl, named⟩
  refine TakesFrom.take ahead (by rcases assigns with is | is <;> simp [is]) fun rest _ => ?_
  refine TakesFrom.bind number_takes ?_
  rintro e delta left - moved
  refine TakesFrom.pure ?_
  rcases assigns with is | is
  · simpa [is, Token.symbol_fixed is rfl] using EffectPhrase.increase named moved
  · simpa [is, Token.symbol_fixed is rfl] using EffectPhrase.decrease named moved

/-- What is read as an arrow from its source on is a new connection. -/
theorem arrowEffect_derives {setting : Setting} {tokens : List Token} {arrow : Token}
    (ahead : Sees setting tokens.tail arrow) (isArrow : arrow.kind = .arrow) :
    TakesFrom arrowEffect setting tokens fun used effect _ =>
      EffectPhrase (used.map Token.symbol) effect := by
  refine TakesFrom.bind (name_derives "domain") ?_
  rintro _ source left rfl ⟨n, rfl, leaves⟩
  refine TakesFrom.take ahead (by simp [isArrow]) fun rest _ =>
    TakesFrom.bind (name_derives "domain") ?_
  rintro _ target left - ⟨m, rfl, enters⟩
  refine TakesFrom.bind (Derives.inParens number_takes) ?_
  rintro _ strength left - ⟨e, same, weighed⟩
  refine TakesFrom.pure ?_
  simpa [Token.symbol_fixed isArrow rfl, same, call] using EffectPhrase.arrow leaves
    enters weighed

/-- What is read as a behavior between braces is an adopted one. -/
theorem adoption_derives :
    Derives adoption fun e effect => EffectPhrase (word "new_behavior" :: e) effect := by
  refine fun setting tokens => TakesFrom.nested fun setting => ?_
  refine TakesFrom.bind (Takes.fixed .braceOpen (by decide) rfl) ?_
  rintro _ o left - ⟨rfl, isOpen⟩
  refine TakesFrom.bind behavior_derives ?_
  rintro e rule left - behaves
  refine TakesFrom.check fun s seen => TakesFrom.ite (fun isSemicolon => ?_) fun _ => ?_
  · have isSemicolon : s.kind = .semicolon := by simpa using isSemicolon
    refine TakesFrom.take seen (by simp [isSemicolon]) fun rest _ => ?_
    refine TakesFrom.bind (Takes.fixed .braceClose (by decide) rfl) ?_
    rintro _ c left - ⟨rfl, isClose⟩
    refine TakesFrom.pure ?_
    simpa [isOpen, Token.symbol_fixed isSemicolon rfl, isClose,
      braced] using EffectPhrase.adoptSeparated behaves
  · refine TakesFrom.bind (Takes.fixed .braceClose (by decide) rfl) ?_
    rintro _ c left - ⟨rfl, isClose⟩
    refine TakesFrom.pure ?_
    simpa [isOpen, isClose, braced] using EffectPhrase.adopt behaves

/-- What is read as an effect is one. -/
theorem effect_derives : Derives effect EffectPhrase := by
  intro setting tokens
  refine TakesFrom.look fun t seen => TakesFrom.lookAhead fun following ahead => ?_
  refine TakesFrom.ite (fun both => ?_) fun _ => ?_
  · refine adjustment_derives ahead ?_
    simpa using (Bool.and_eq_true_iff.mp both).2
  refine TakesFrom.ite (fun both => ?_) fun _ => ?_
  · refine arrowEffect_derives ahead ?_
    simpa using (Bool.and_eq_true_iff.mp both).2
  refine TakesFrom.ite (fun isWord => ?_) fun _ => TakesFrom.failAt t _
  have there : t.kind ≠ .endOfInput := by simp [isWord]
  have symbol := Token.symbol_word isWord
  refine TakesFrom.ite (fun is => ?_) fun _ => ?_
  · refine TakesFrom.take seen there fun rest _ =>
      TakesFrom.bind (name_derives "domain").inParens ?_
    rintro _ domain left - ⟨n, same, named⟩
    refine TakesFrom.pure ?_
    simpa [symbol, is, same, call] using EffectPhrase.unlock named
  refine TakesFrom.ite (fun is => ?_) fun _ => ?_
  · refine TakesFrom.take seen there fun rest _ => TakesFrom.arguments fun setting tokens => ?_
    refine TakesFrom.bind (name_derives "domain") ?_
    rintro _ source left - ⟨n, rfl, leaves⟩
    refine TakesFrom.bind (Takes.fixed .comma (by decide) rfl) ?_
    rintro _ c left - ⟨rfl, isComma⟩
    refine TakesFrom.bind (name_derives "domain") ?_
    rintro _ target left - ⟨m, rfl, enters⟩
    refine TakesFrom.bind (Takes.fixed .comma (by decide) rfl) ?_
    rintro _ d left - ⟨rfl, isSecond⟩
    refine TakesFrom.bind number_takes ?_
    rintro e strength left - weighed
    refine TakesFrom.pure ?_
    simpa [symbol, is, isComma, isSecond] using EffectPhrase.connect leaves enters weighed
  refine TakesFrom.ite (fun is => ?_) fun _ => TakesFrom.failAt t _
  refine TakesFrom.take seen there fun rest _ => (adoption_derives setting rest).imp ?_
  intro used effect _ phrase
  simpa [symbol, is] using phrase

/-- What is read as an evolution rule is one. -/
theorem evolutionRule_derives : Derives evolutionRule EvolutionPhrase := by
  intro setting tokens
  refine TakesFrom.bind (Takes.fixed .if (by decide) rfl) ?_
  rintro _ i left - ⟨rfl, isIf⟩
  refine TakesFrom.bind trigger_derives ?_
  rintro e trigger left - sets
  refine TakesFrom.bind (Takes.fixed .then (by decide) rfl) ?_
  rintro _ t left - ⟨rfl, isThen⟩
  refine TakesFrom.bind effect_derives ?_
  rintro f effect left - changes
  refine TakesFrom.pure ?_
  simpa [isIf, isThen] using EvolutionPhrase.rule sets changes

end Persona.Grammar
