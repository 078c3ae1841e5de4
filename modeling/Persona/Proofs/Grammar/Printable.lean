import Persona.Proofs.Grammar.Document

/-!
# What is read can be printed

The values of tokens have no quotes and no line feeds in them, numbers are finite
because the reader checks them, and every part of a personality is built from these.
So whatever a document or a fragment is read to, entries skipped or not, it can be
printed.
-/

namespace Persona

open Text (Quotable)

/-- A string or a name has a value that can be quoted. -/
def Token.Clean (t : Token) : Prop := t.kind = .string ∨ t.kind = .name → Quotable t.value

/-- The end has no value to quote. -/
theorem Token.clean_of_end {t : Token} (ends : t.kind = .endOfInput) : t.Clean := by
  rintro (isString | isName)
  · rw [ends] at isString
    cases isString
  · rw [ends] at isName
    cases isName

/-- A character is a well-formed sequence or a lone byte that starts none. -/
def Character.Formed (c : Character) : Prop :=
  (∃ b : UInt8, 0x80 ≤ b ∧ c = Character.undecodable b) ∨ Character.Sequence c

/-- Characters other than the quote and the line feed have no byte that is either. -/
theorem quotable_ofCharacters {cs : List Character} (formed : ∀ c ∈ cs, c.Formed)
    (inside : ∀ c ∈ cs, c.code ≠ 34 ∧ c.code ≠ 10) : Quotable (Text.ofCharacters cs) := by
  intro b member
  obtain ⟨c, inText, inBytes⟩ := List.mem_flatMap.mp member
  rcases formed c inText with ⟨lone, large, rfl⟩ | sequence
  · obtain rfl : b = lone := by simpa [Character.undecodable] using inBytes
    exact ⟨by rintro rfl; simp at large, by rintro rfl; simp at large⟩
  rcases sequence.ascii_or_above with ⟨ascii, -, rfl⟩ | ⟨-, above⟩
  · obtain rfl : b = ascii := by simpa using inBytes
    have apart := inside _ inText
    exact ⟨by rintro rfl; simp at apart, by rintro rfl; simp at apart⟩
  · have large := above b inBytes
    exact ⟨by rintro rfl; simp at large, by rintro rfl; simp at large⟩

namespace Token

open Character (isLetter isDecimalDigit)

/-- What continues a name is neither a quote nor a line feed. -/
theorem continuesName_inside {code : Nat} (continues : continuesName code = true) :
    code ≠ 34 ∧ code ≠ 10 := by
  refine ⟨?_, ?_⟩
  · rintro rfl
    revert continues
    decide
  · rintro rfl
    revert continues
    decide

/-- A token read from well-formed characters is clean. -/
theorem Lexed.clean {first : Character} {rest taken left : List Character} {kind : Kind}
    (lexed : Lexed first rest kind taken left) (formed : ∀ c ∈ first :: rest, c.Formed) :
    kind = .string ∨ kind = .name → Quotable (valueOf kind taken) := by
  have symbolKind {kind : Kind} (other : kind ≠ .string ∧ kind ≠ .name)
      (either : kind = .string ∨ kind = .name) :
      False := either.elim other.1 other.2
  cases lexed with
  | biArrow a b left less dash point =>
    exact fun either => (symbolKind (by decide) either).elim
  | double next left kind notLess symbol =>
    obtain ⟨noString, noName, -⟩ := doubleSymbol?_kind symbol
    exact fun either => (symbolKind ⟨noString, noName⟩ either).elim
  | single left kind notLess symbol apart =>
    obtain ⟨noString, noName, -⟩ := symbol?_kind symbol
    exact fun either => (symbolKind ⟨noString, noName⟩ either).elim
  | string content close left quote closes inside =>
    intro _
    have value : valueOf .string (first :: content ++ [close]) =
        Text.ofCharacters content := by
      simp [valueOf]
    rw [value]
    exact quotable_ofCharacters (fun c member => formed c (by simp [member])) inside
  | whole digits left digit allDigits stops =>
    exact fun either => (symbolKind (by decide) either).elim
  | fraction digits point fraction left digit isPoint allDigits fractionDigits someFraction
      stops =>
    exact fun either => (symbolKind (by decide) either).elim
  | word run left letter within stops =>
    rintro (isString | isName)
    · rcases word_kind (Text.ofCharacters (first :: run)) with isName | keyword
      · rw [isString] at isName
        cases isName
      · rw [isString] at keyword
        cases keyword
    · rw [isName]
      refine quotable_ofCharacters (fun c member => formed c ?_) ?_
      · rcases List.mem_cons.mp member with rfl | later
        · exact List.mem_cons_self
        · simp [later]
      · refine List.forall_mem_cons.mpr
          ⟨continuesName_inside (by simp [continuesName, letter]), ?_⟩
        exact fun c member => continuesName_inside (within c member)

/-- Skipping blanks and comments leaves a part of the characters. -/
theorem skipGap_subset {gap : Gap} {offset stop : Nat} {cs left : List Character}
    (skipped : skipGap gap offset cs = .ok (stop, left)) : left ⊆ cs := by
  fun_induction skipGap gap offset cs
  all_goals grind

/-- What holds of every token that is read from characters of some kind holds of all
tokens that a scanner collects from such characters, and what it stops at is the end. -/
theorem collect_ensures {formed : Character → Prop} {condition : Token → Prop}
    (lexes : ∀ {first rest taken left kind} start stop, Lexed first rest kind taken left →
      (∀ c ∈ first :: rest, formed c) → condition ⟨kind, valueOf kind taken, start, stop⟩)
    {fuel offset : Nat} {cs : List Character} {stream : Scanner.Stream}
    (allFormed : ∀ c ∈ cs, formed c)
    (collected : Scanner.collect fuel ⟨offset, cs, none⟩ = .ok stream) :
    (∀ t ∈ stream.tokens, condition t) ∧ stream.last.kind = .endOfInput := by
  induction fuel generalizing offset cs stream with
  | zero =>
    cases collected
    exact ⟨by simp, rfl⟩
  | succ fuel inductionHypothesis =>
    rcases collect_cases collected with ⟨stop, -, rfl⟩ |
      ⟨start, first, tail, left, kind, after, begins, read, others, rfl⟩
    · exact ⟨by simp, rfl⟩
    · have moreFormed : ∀ c ∈ first :: (tail ++ left), formed c := fun c member =>
        allFormed c (skipGap_subset begins member)
      obtain ⟨holdOthers, ends⟩ :=
        inductionHypothesis (fun c member => moreFormed c (by simp [member])) others
      exact ⟨List.forall_mem_cons.mpr ⟨lexes _ _ (lexeme_cases read) moreFormed,
        holdOthers⟩, ends⟩

/-- Scanning any text gives clean tokens and the end. -/
theorem scan_clean {text : Text} {stream : Scanner.Stream}
    (scanned : Token.scan text = .ok stream) :
    (∀ t ∈ stream.tokens, t.Clean) ∧ stream.last.kind = .endOfInput :=
  collect_ensures (fun _ _ lexed formed => lexed.clean formed) (fun _ member =>
    Text.mem_characters member) scanned

end Token

namespace Grammar

open Grammar.Parser

/-- From clean tokens, whatever the parser reads satisfies the condition, and clean
tokens are left. -/
def Ensures {α : Type} (p : Parser α) (post : α → Prop) : Prop :=
  ∀ setting tokens events value left, setting.last.Clean → (∀ t ∈ tokens, t.Clean) →
    p setting tokens = ⟨events, .ok (value, left)⟩ → post value ∧ ∀ t ∈ left, t.Clean

namespace Ensures

variable {α β : Type} {p q : Parser α}

/-- Reading nothing. -/
theorem pure {post : α → Prop} {value : α} (holds : post value) :
    Ensures (Pure.pure value) post := by
  intro setting tokens events result left _ clean read
  cases read
  exact ⟨holds, clean⟩

/-- Reading one part and then another. -/
theorem bind {next : α → Parser β} {first : α → Prop} {post : β → Prop}
    (ensures : Ensures p first)
    (continues : ∀ value, first value → Ensures (next value) post) :
    Ensures (p >>= next) post := by
  intro setting tokens events result left cleanEnd clean read
  change Parser.bind p next setting tokens = _ at read
  unfold Parser.bind at read
  cases outcome : p setting tokens with
  | mk firstEvents reply =>
    cases reply with
    | error e => simp [outcome] at read
    | ok answer =>
      obtain ⟨value, middle⟩ := answer
      obtain ⟨holds, cleanMiddle⟩ :=
        ensures setting tokens _ value middle cleanEnd clean outcome
      simp only [outcome] at read
      obtain ⟨-, second⟩ := Reply.mk.inj read
      exact continues value holds setting middle _ result left cleanEnd cleanMiddle
        (by rw [← second])

/-- Reading one part and then another that does not depend on it. -/
theorem andThen {next : α → Parser β} {first : α → Prop} {post : β → Prop}
    (ensures : Ensures p first)
    (continues : ∀ value, Ensures (next value) post) : Ensures (p >>= next) post :=
  bind ensures fun value _ => continues value

/-- Either of two parsers. -/
theorem ite {condition : Prop} [Decidable condition] {post : α → Prop}
    (holds : condition → Ensures p post)
    (fails : ¬ condition → Ensures q post) : Ensures (if condition then p else q) post := by
  split
  · exact holds ‹_›
  · exact fails ‹_›

/-- A failure ensures anything. -/
theorem failAt {post : α → Prop} (token : Token) (cause : SyntaxError.Cause) :
    Ensures (Parser.failAt token cause : Parser α) post := by
  intro setting tokens events value left _ _ read
  cases read

/-- A token that is looked at is clean. -/
theorem peek (ahead : Nat) : Ensures (Parser.peek ahead) Token.Clean := by
  intro setting tokens events value left cleanEnd clean read
  obtain ⟨-, answer⟩ := Reply.mk.inj read
  cases answer
  refine ⟨?_, clean⟩
  cases there : tokens[ahead]? with
  | none => exact cleanEnd
  | some t => exact clean t (List.mem_of_getElem? there)

/-- The next token is clean. -/
theorem current : Ensures Parser.current Token.Clean := peek 0

/-- A failure at the next token ensures anything. -/
theorem fail {post : α → Prop} (cause : Token → SyntaxError.Cause) :
    Ensures (Parser.fail cause : Parser α) post := andThen current fun t => failAt t (cause t)

/-- A token that is taken is clean. -/
theorem advance : Ensures Parser.advance Token.Clean := by
  intro setting tokens events value left cleanEnd clean read
  obtain ⟨-, answer⟩ := Reply.mk.inj read
  cases answer
  cases tokens with
  | nil => exact ⟨cleanEnd, by simp⟩
  | cons t tokens =>
    obtain ⟨first, others⟩ := List.forall_mem_cons.mp clean
    exact ⟨first, others⟩

/-- Comparing the kind of the next token. -/
theorem check (kind : Kind) : Ensures (Parser.check kind) fun _ => True :=
  andThen current fun _ => pure trivial

/-- A token that was expected is clean and has the kind. -/
theorem expect (kind : Kind) : Ensures (Parser.expect kind) fun t => t.Clean ∧
    t.kind = kind := by
  intro setting tokens events value left cleanEnd clean read
  have taken : Parser.expect kind setting tokens =
      if (tokens.head?.getD setting.last).kind = kind then Parser.advance setting tokens
      else Parser.failAt (tokens.head?.getD setting.last)
        (.expected kind (tokens.head?.getD setting.last)) setting tokens := by
    by_cases isKind : (tokens.head?.getD setting.last).kind = kind
    all_goals
      cases tokens <;>
        simp_all [Parser.expect, Bind.bind, Parser.bind, Parser.current, Parser.peek]
  rw [taken] at read
  split at read
  · rename_i isKind
    obtain ⟨cleanToken, cleanLeft⟩ :=
      advance setting tokens events value left cleanEnd clean read
    obtain ⟨-, answer⟩ := Reply.mk.inj read
    cases answer
    exact ⟨⟨cleanToken, isKind⟩, cleanLeft⟩
  · cases read

/-- Noting an event. -/
theorem note (event : Event) : Ensures (Parser.note event) fun _ => True := by
  intro setting tokens events value left _ clean read
  cases read
  exact ⟨trivial, clean⟩

/-- One level deeper. -/
theorem nested {post : α → Prop} (ensures : Ensures p post) :
    Ensures (Parser.nested p) post := by
  intro setting tokens events value left cleanEnd clean read
  unfold Parser.nested at read
  split at read
  · exact fail _ setting tokens events value left cleanEnd clean read
  · exact ensures { setting with depth := setting.depth + 1 } tokens events value left
      cleanEnd clean read

/-- A parser that is told how many tokens there are. -/
theorem ofLength {p : Nat → Parser α} {post : α → Prop}
    (ensures : ∀ length, Ensures (p length) post) :
    Ensures (fun setting tokens => p tokens.length setting tokens) post :=
  fun setting tokens => ensures tokens.length setting tokens

/-- Reading between parentheses. -/
theorem parenthesized {post : α → Prop} (ensures : Ensures p post) :
    Ensures (Parser.parenthesized p) post :=
  andThen (expect _) fun _ => bind ensures fun _ holds => andThen (expect _) fun _ =>
    pure holds

end Ensures

/-- The text of a keyword can be quoted. -/
theorem keyword_quotable {kind : Kind} (keyword : kind.isKeyword = true) :
    Quotable kind.text := by
  have all : ∀ kind ∈ Kind.keywords, Quotable kind.text := by decide
  exact all kind (by simpa [Kind.isKeyword] using keyword)

/-- A name can be quoted. -/
theorem name_ensures (role : Text) : Ensures (name role) Quotable := by
  refine Ensures.bind Ensures.current fun t clean => Ensures.ite (fun isName => ?_) fun _ =>
    Ensures.failAt t _
  refine Ensures.andThen Ensures.advance fun _ => Ensures.pure ?_
  unfold nameOf
  split
  · exact keyword_quotable ‹_›
  · rename_i noKeyword
    simp [Grammar.isName, noKeyword] at isName
    exact clean isName.symm

/-- A string can be quoted. -/
theorem string_ensures : Ensures string Quotable := by
  exact Ensures.bind (Ensures.expect .string) fun t taken =>
    Ensures.pure (taken.1 (.inl taken.2))

/-- A unit of time is one of the four. -/
theorem timeUnit_ensures : Ensures timeUnit (· ∈ TimeUnit.all) := by
  refine Ensures.andThen Ensures.current fun t => ?_
  split
  · rename_i unit named
    refine Ensures.andThen Ensures.advance fun _ => Ensures.pure ?_
    split at named
    · exact List.mem_of_find?_eq_some named
    · cases named
  · exact Ensures.failAt t _

/-- A level is one of the four. -/
theorem level_ensures : Ensures level (· ∈ Level.all) := by
  refine Ensures.andThen Ensures.current fun t => ?_
  split
  · rename_i unit named
    refine Ensures.andThen Ensures.advance fun _ => Ensures.pure ?_
    split at named
    · exact List.mem_of_find?_eq_some named
    · cases named
  · exact Ensures.failAt t _

/-- An operand leaves clean tokens. -/
theorem operand_ensures {inner : Nat → Parser Binary64}
    (ensures : ∀ power, Ensures (inner power) fun _ => True) :
    Ensures (operand inner) fun _ => True := by
  refine Ensures.andThen Ensures.current fun t => ?_
  split
  · refine Ensures.andThen Ensures.advance fun _ => ?_
    unfold literal
    split
    · exact Ensures.pure trivial
    · exact Ensures.failAt t _
  · exact Ensures.andThen Ensures.advance fun _ =>
      Ensures.andThen (ensures signPower) fun _ => Ensures.pure trivial
  · exact Ensures.andThen Ensures.advance fun _ => Ensures.andThen (ensures 0) fun _ =>
      Ensures.andThen (Ensures.expect _) fun _ => Ensures.pure trivial
  · exact Ensures.failAt t _

/-- Operators leave clean tokens. -/
theorem operators_ensures {inner : Nat → Parser Binary64}
    (ensures : ∀ power, Ensures (inner power) fun _ => True) (power fuel : Nat)
    (left : Binary64) :
    Ensures (operators inner power fuel left) fun _ => True := by
  induction fuel generalizing left with
  | zero => exact Ensures.pure trivial
  | succ fuel inductionHypothesis =>
    refine Ensures.andThen Ensures.current fun operator =>
      Ensures.andThen (Ensures.peek 1) fun following =>
      Ensures.ite (fun _ => ?_) fun _ => Ensures.pure trivial
    refine Ensures.andThen Ensures.advance fun _ => Ensures.andThen (ensures _) fun right => ?_
    have applied : Ensures (apply operator left right) fun _ => True := by
      unfold apply
      split
      · exact Ensures.pure trivial
      · exact Ensures.pure trivial
      · exact Ensures.pure trivial
      · exact Ensures.ite (fun _ => Ensures.failAt operator _) fun _ => Ensures.pure trivial
    exact Ensures.andThen applied fun value => inductionHypothesis value

/-- An expression leaves clean tokens. -/
theorem expressionWithin_ensures (fuel power : Nat) :
    Ensures (expressionWithin fuel power) fun _ => True := by
  induction fuel generalizing power with
  | zero => exact Ensures.fail _
  | succ fuel inductionHypothesis =>
    exact Ensures.nested (Ensures.andThen (operand_ensures inductionHypothesis) fun left =>
      operators_ensures inductionHypothesis power fuel left)

/-- A number is finite. -/
theorem number_ensures : Ensures number (·.isFinite = true) := by
  refine Ensures.andThen Ensures.current fun t => ?_
  refine Ensures.andThen (Ensures.ofLength (p := fun length => expressionWithin (length + 1) 0)
    fun length => expressionWithin_ensures (length + 1) 0) fun value => ?_
  exact Ensures.ite (fun finite => Ensures.pure finite) fun _ => Ensures.failAt t _

/-- A count is the value of a number and fits sixty-four bits. -/
theorem count_ensures : Ensures count IsCount := by
  refine Ensures.andThen Ensures.current fun t =>
    Ensures.andThen number_ensures fun value => ?_
  split
  · exact Ensures.failAt t _
  · rename_i n whole
    refine Ensures.ite (fun _ => Ensures.failAt t _) fun inRange => Ensures.pure ?_
    simp only [Bool.or_eq_true, decide_eq_true_eq, not_or, Int.not_lt, Int.not_le] at inRange
    exact ⟨inRange.1, inRange.2, value, whole⟩

/-- A circumstance can be printed. -/
theorem context_ensures : Ensures context Context.Printable := by
  refine Ensures.bind Ensures.current fun t clean =>
    Ensures.ite (fun isString => ?_) fun _ => ?_
  · exact Ensures.andThen Ensures.advance fun _ => Ensures.pure (clean (.inl isString))
  refine Ensures.andThen (Ensures.peek 1) fun following =>
    Ensures.ite (fun _ => ?_) fun _ => Ensures.failAt t _
  refine Ensures.andThen Ensures.advance fun _ => Ensures.andThen Ensures.advance fun _ =>
    Ensures.bind string_ensures fun value quotable => ?_
  exact Ensures.ite (fun _ => Ensures.pure quotable) fun _ =>
    Ensures.ite (fun _ => Ensures.pure quotable) fun _ =>
    Ensures.ite (fun _ => Ensures.pure quotable) fun _ =>
      Ensures.ite (fun _ => Ensures.pure quotable) fun _ =>
    Ensures.failAt t _

/-- A modifier can be printed. -/
theorem modifier_ensures : Ensures modifier Modifier.Printable := by
  have circumstance := Ensures.parenthesized context_ensures
  have decays : Ensures decay Modifier.Printable := by
    refine Ensures.parenthesized (Ensures.bind number_ensures fun rate finite => ?_)
    exact Ensures.andThen (Ensures.expect _) fun _ =>
      Ensures.bind timeUnit_ensures fun unit listed =>
      Ensures.pure ⟨finite, listed⟩
  have amplifies : Ensures amplification Modifier.Printable := by
    refine Ensures.parenthesized (Ensures.bind (name_ensures _) fun target quotable => ?_)
    exact Ensures.andThen (Ensures.expect _) fun _ =>
      Ensures.bind number_ensures fun factor finite =>
      Ensures.pure ⟨quotable, finite⟩
  have transforms : Ensures transformation Modifier.Printable := by
    refine Ensures.parenthesized (Ensures.bind (name_ensures _) fun target quotable => ?_)
    refine Ensures.andThen (Ensures.expect _) fun _ =>
      Ensures.bind number_ensures fun factor finite => ?_
    exact Ensures.andThen (Ensures.expect _) fun _ =>
      Ensures.bind count_ensures fun n counts =>
      Ensures.pure ⟨quotable, finite, counts⟩
  refine Ensures.andThen Ensures.current fun t => Ensures.ite (fun _ => ?_) fun _ =>
    Ensures.ite (fun _ => ?_)
    fun _ => Ensures.failAt t _
  · exact Ensures.andThen Ensures.advance fun _ => Ensures.bind circumstance fun c printable =>
      Ensures.pure ⟨c, rfl, printable⟩
  refine Ensures.ite (fun _ => Ensures.andThen Ensures.advance fun _ => decays) fun _ =>
    Ensures.ite (fun _ => ?_)
    fun _ => Ensures.ite (fun _ => Ensures.andThen Ensures.advance fun _ => amplifies) fun _ =>
    Ensures.ite (fun _ => Ensures.andThen Ensures.advance fun _ => transforms) fun _ =>
      Ensures.failAt t _
  exact Ensures.andThen Ensures.advance fun _ => Ensures.bind circumstance fun c printable =>
    Ensures.pure ⟨c, rfl, printable⟩

/-- Modifiers can be printed. -/
theorem modifiersWithin_ensures (fuel : Nat) :
    Ensures (modifiersWithin fuel) fun ms => ∀ m ∈ ms, m.Printable := by
  induction fuel with
  | zero => exact Ensures.fail _
  | succ fuel inductionHypothesis =>
    refine Ensures.bind modifier_ensures fun first printable =>
      Ensures.andThen (Ensures.check _) fun _ =>
      Ensures.ite (fun _ => ?_) fun _ => Ensures.pure (by simpa using printable)
    exact Ensures.andThen Ensures.advance fun _ =>
      Ensures.bind inductionHypothesis fun others allPrintable =>
      Ensures.pure (List.forall_mem_cons.mpr ⟨printable, allPrintable⟩)

/-- A trait can be printed. -/
theorem trait_ensures : Ensures trait Trait.Printable := by
  refine Ensures.bind (name_ensures _) fun called quotable =>
    Ensures.andThen (Ensures.expect _) fun _ =>
    Ensures.bind number_ensures fun strength finite =>
      Ensures.andThen (Ensures.check _) fun _ =>
    Ensures.ite (fun _ => ?_) fun _ => Ensures.pure ⟨quotable, finite, by simp⟩
  refine Ensures.andThen Ensures.advance fun _ => Ensures.bind (Ensures.ofLength
    (p := fun length => modifiersWithin (length + 1)) fun length =>
      modifiersWithin_ensures (length + 1))
    fun ms printable => Ensures.pure ⟨quotable, finite, ?_⟩
  intro m member
  obtain ⟨value, inList, rfl⟩ := List.mem_map.mp member
  exact ⟨value, rfl, printable value inList⟩

/-- An entry of a domain that can be printed. -/
def DomainEntry.Printable : DomainEntry → Prop
  | .topic value => value.Printable
  | .connections values => ∀ c ∈ values, c.Printable

/-- What an arrow points to can be printed, from a source that can be quoted. -/
theorem connection_ensures {source : Text} (quotable : Quotable source) :
    Ensures (connection source) DomainEntry.Printable := by
  refine Ensures.andThen Ensures.advance fun arrow =>
    Ensures.bind (name_ensures _) fun target targetQuotable =>
    Ensures.andThen (Ensures.expect _) fun _ =>
      Ensures.bind number_ensures fun strength finite => ?_
  have rated : Ensures (do
      if ← check .comma then
        let _ ← advance
        let value ← number
        return some value
      else return none : Parser (Option Binary64)) fun rate => ∀ r ∈ rate,
        r.isFinite = true := by
    refine Ensures.andThen (Ensures.check _) fun _ => Ensures.ite (fun _ => ?_) fun _ =>
      Ensures.pure (by simp)
    exact Ensures.andThen Ensures.advance fun _ =>
      Ensures.bind number_ensures fun value finite =>
      Ensures.pure (by rintro _ ⟨rfl⟩; exact finite)
  refine Ensures.bind rated fun rate rateFinite =>
    Ensures.andThen (Ensures.expect _) fun _ => Ensures.pure ?_
  have forth : Connection.Printable ⟨source, target, strength, rate⟩ :=
    ⟨quotable, targetQuotable, finite, rateFinite⟩
  have back : Connection.Printable ⟨target, source, strength, rate⟩ :=
    ⟨targetQuotable, quotable, finite, rateFinite⟩
  change ∀ c ∈ _, Connection.Printable c
  split
  · simpa using ⟨forth, back⟩
  · simpa using forth

/-- An entry of a domain can be printed. -/
theorem domainEntry_ensures {owner : Text} (quotable : Quotable owner) :
    Ensures (domainEntry owner) DomainEntry.Printable := by
  refine Ensures.andThen Ensures.current fun t =>
    Ensures.ite (fun _ => connection_ensures quotable) fun _ => ?_
  refine Ensures.bind (name_ensures _) fun called calledQuotable =>
    Ensures.andThen Ensures.current fun following =>
    Ensures.ite (fun _ => ?_) fun _ =>
      Ensures.ite (fun _ => connection_ensures calledQuotable) fun _ =>
    Ensures.failAt t _
  exact Ensures.andThen Ensures.advance fun _ => Ensures.bind level_ensures fun level listed =>
    Ensures.pure ⟨calledQuotable, listed⟩

section Lists

variable {α : Type}

/-- What follows a separator is a part of the tokens. -/
theorem afterSeparator?_subset {depth : Nat} {tokens left : List Token}
    (found : afterSeparator? depth tokens = some left) : left ⊆ tokens := by
  fun_induction afterSeparator? depth tokens
  all_goals grind

/-- An entry that was not skipped satisfies what the entry parser ensures. -/
theorem recovering_ensures (list : Text) {entry : Parser α} {post : α → Prop}
    (ensures : Ensures entry post) :
    Ensures (recovering list entry) fun value => ∀ x ∈ value, post x := by
  intro setting tokens events value left cleanEnd clean read
  obtain ⟨entered, rfl, outcome⟩ | ⟨e, rfl, -, found⟩ :=
    recovering_cases (congrArg Reply.outcome read)
  · obtain ⟨holds, cleanAfter⟩ := ensures setting tokens _ entered left cleanEnd clean
      (congrArg (Reply.mk _) outcome)
    exact ⟨by rintro _ ⟨rfl⟩; exact holds, cleanAfter⟩
  · exact ⟨by simp, fun t member => clean t (afterSeparator?_subset found member)⟩

/-- All entries of a list satisfy what the entry parser ensures. -/
theorem entriesWithin_ensures (list : Text) (optional : Bool) {entry : Parser α}
    {post : α → Prop} (ensures : Ensures entry post) (fuel : Nat) :
    Ensures (entriesWithin list optional entry fuel) fun values => ∀ x ∈ values, post x := by
  have separates : Ensures (separated list optional entry) post := by
    refine Ensures.bind ensures fun value holds => Ensures.andThen Ensures.current fun t =>
      Ensures.ite (fun _ => ?_) fun _ => Ensures.ite (fun _ => Ensures.pure holds) fun _ =>
        Ensures.failAt t _
    exact Ensures.andThen Ensures.advance fun _ => Ensures.pure holds
  induction fuel with
  | zero => exact Ensures.fail _
  | succ fuel inductionHypothesis =>
    refine Ensures.andThen Ensures.current fun t => Ensures.ite (fun _ => ?_) fun _ =>
      Ensures.ite (fun _ => Ensures.failAt t _) fun _ => ?_
    · exact Ensures.andThen Ensures.advance fun _ => Ensures.pure (by simp)
    refine Ensures.bind (recovering_ensures list separates) fun value holds =>
      Ensures.bind inductionHypothesis fun values allHold => Ensures.pure ?_
    intro x member
    rcases List.mem_append.mp member with first | later
    · exact holds x (by simpa using first)
    · exact allHold x later

/-- All entries between braces satisfy what the entry parser ensures. -/
theorem entries_ensures (list : Text) (optional : Bool) {entry : Parser α} {post : α → Prop}
    (ensures : Ensures entry post) : Ensures (entries list optional entry) fun values =>
    ∀ x ∈ values, post x :=
  Ensures.andThen (Ensures.expect _) fun _ =>
    Ensures.ofLength (p := fun length => entriesWithin list optional entry (length + 1))
      fun length =>
      entriesWithin_ensures list optional ensures (length + 1)

end Lists

/-- A domain can be printed. -/
theorem domain_ensures : Ensures domain Domain.Printable := by
  refine Ensures.andThen (Ensures.expect _) fun _ =>
    Ensures.bind (Ensures.parenthesized (name_ensures _))
    fun called quotable =>
      Ensures.bind (entries_ensures _ false (domainEntry_ensures quotable))
    fun all printable => Ensures.pure ⟨quotable, ?_, ?_⟩
  · intro t member
    obtain ⟨entry, listed, isTopic⟩ := List.mem_filterMap.mp member
    have holds := printable entry listed
    cases entry with
    | topic value =>
      cases isTopic
      exact holds
    | connections values => cases isTopic
  · intro c member
    obtain ⟨entry, listed, isConnection⟩ := List.mem_flatMap.mp member
    have holds := printable entry listed
    cases entry with
    | topic value => cases isConnection
    | connections values => exact holds c isConnection

/-- A condition that is a word can be printed. -/
theorem wordCondition_ensures {t : Token} (quotable : Quotable t.value) (call : Bool) :
    Ensures (wordCondition t call) Condition.Printable := by
  refine Ensures.ite (fun _ => ?_) fun _ => Ensures.ite (fun _ => ?_) fun _ =>
    Ensures.ite (fun _ => ?_) fun _ =>
    Ensures.ite (fun _ => ?_) fun _ => ?_
  · have either : (if t.value = "tired" then Condition.tired else .motivated).Printable := by
      split <;> trivial
    refine Ensures.andThen Ensures.advance fun _ => Ensures.ite (fun _ => ?_) fun _ =>
      Ensures.pure either
    exact Ensures.andThen Ensures.advance fun _ =>
      Ensures.andThen (Ensures.expect _) fun _ => Ensures.pure either
  · exact Ensures.andThen Ensures.advance fun _ =>
      Ensures.bind (Ensures.parenthesized string_ensures)
      fun value valueQuotable => Ensures.pure valueQuotable
  · refine Ensures.andThen Ensures.advance fun _ => Ensures.andThen Ensures.advance fun _ =>
      Ensures.bind string_ensures fun start startQuotable =>
        Ensures.andThen (Ensures.expect _) fun _ => ?_
    exact Ensures.bind string_ensures fun stop stopQuotable =>
      Ensures.andThen (Ensures.expect _) fun _ =>
      Ensures.pure ⟨startQuotable, stopQuotable⟩
  · refine Ensures.andThen Ensures.advance fun _ => Ensures.andThen Ensures.advance fun _ =>
      Ensures.andThen (Ensures.check _) fun _ => ?_
    have rest : Ensures (do
        let _ ← expect .parenClose
        note (.unknownCondition t)
        return Condition.context t.value) Condition.Printable :=
      Ensures.andThen (Ensures.expect _) fun _ => Ensures.andThen (Ensures.note _) fun _ =>
        Ensures.pure quotable
    exact Ensures.ite (fun _ => Ensures.andThen Ensures.advance fun _ => rest) fun _ => rest
  · exact Ensures.andThen Ensures.advance fun _ => Ensures.pure quotable

/-- A condition can be printed. -/
theorem condition_ensures : Ensures condition Condition.Printable := by
  refine Ensures.bind Ensures.current fun t clean =>
    Ensures.andThen (Ensures.peek 1) fun following =>
    Ensures.ite (fun _ => ?_) fun _ => Ensures.ite (fun isString => ?_) fun _ =>
      Ensures.ite (fun isName => ?_)
    fun _ => Ensures.failAt t _
  · exact Ensures.bind (name_ensures _) fun called quotable =>
      Ensures.andThen Ensures.advance fun _ =>
      Ensures.bind number_ensures fun threshold finite => Ensures.pure ⟨quotable, finite⟩
  · exact Ensures.andThen Ensures.advance fun _ => Ensures.pure (clean (.inl isString))
  · exact wordCondition_ensures (clean (.inr isName)) _

/-- An action can be printed. -/
theorem action_ensures : Ensures action Action.Printable := by
  have loose : Ensures looseString Quotable :=
    Ensures.andThen (Ensures.check _) fun _ => Ensures.ite
      (fun _ => Ensures.parenthesized string_ensures) fun _ => string_ensures
  refine Ensures.andThen Ensures.current fun t => Ensures.ite (fun _ => ?_) fun _ =>
    Ensures.failAt t _
  refine Ensures.ite (fun _ => ?_) fun _ => Ensures.ite (fun _ => ?_) fun _ =>
    Ensures.ite (fun _ => ?_) fun _ =>
    Ensures.ite (fun _ => ?_) fun _ => Ensures.failAt t _
  · exact Ensures.andThen Ensures.advance fun _ => Ensures.bind loose fun value quotable =>
      Ensures.pure quotable
  · exact Ensures.andThen Ensures.advance fun _ => Ensures.bind loose fun value quotable =>
      Ensures.pure quotable
  · exact Ensures.andThen Ensures.advance fun _ => Ensures.bind loose fun value quotable =>
      Ensures.pure quotable
  · exact Ensures.andThen Ensures.advance fun _ =>
      Ensures.parenthesized (Ensures.bind (name_ensures _)
      fun key keyQuotable => Ensures.andThen (Ensures.expect _) fun _ =>
      Ensures.bind string_ensures fun value valueQuotable =>
        Ensures.pure ⟨keyQuotable, valueQuotable⟩)

/-- A behavior rule can be printed. -/
theorem behavior_ensures : Ensures behavior BehaviorRule.Printable :=
  Ensures.andThen (Ensures.expect _) fun _ =>
    Ensures.bind condition_ensures fun c conditionPrintable =>
    Ensures.andThen (Ensures.expect _) fun _ =>
      Ensures.bind action_ensures fun a actionPrintable =>
    Ensures.pure ⟨⟨c, rfl, conditionPrintable⟩, ⟨a, rfl, actionPrintable⟩⟩

/-- A trigger can be printed. -/
theorem trigger_ensures : Ensures trigger Trigger.Printable := by
  have comparison {α : Type} {value : Parser α} {post : α → Prop}
      (ensures : Ensures value post) :
      Ensures (compared value) post :=
    Ensures.andThen (Ensures.check _) fun _ => Ensures.ite
      (fun _ => Ensures.andThen Ensures.advance fun _ => ensures) fun _ =>
        Ensures.parenthesized ensures
  refine Ensures.andThen Ensures.current fun t => Ensures.ite (fun _ => ?_) fun _ =>
    Ensures.failAt t _
  refine Ensures.ite (fun _ => ?_) fun _ => Ensures.ite (fun _ => ?_) fun _ =>
    Ensures.ite (fun _ => ?_) fun _ =>
    Ensures.ite (fun _ => ?_) fun _ => ?_
  · exact Ensures.andThen Ensures.advance fun _ =>
      Ensures.bind (Ensures.parenthesized (name_ensures _))
      fun topic quotable => Ensures.pure quotable
  · refine Ensures.andThen Ensures.advance fun _ =>
      Ensures.parenthesized (Ensures.bind (name_ensures _)
      fun domain quotable => Ensures.andThen (Ensures.expect _) fun _ =>
        Ensures.bind count_ensures fun n counts => ?_)
    exact Ensures.bind timeUnit_ensures fun unit listed =>
      Ensures.pure ⟨quotable, listed, counts⟩
  · exact Ensures.andThen Ensures.advance fun _ =>
      Ensures.bind (comparison count_ensures) fun n counts =>
      Ensures.pure counts
  · exact Ensures.andThen Ensures.advance fun _ =>
      Ensures.bind (comparison number_ensures) fun score finite =>
      Ensures.pure finite
  · refine Ensures.andThen (Ensures.peek 1) fun following =>
      Ensures.ite (fun _ => ?_) fun _ => Ensures.failAt t _
    exact Ensures.andThen Ensures.advance fun _ =>
      Ensures.bind (Ensures.parenthesized number_ensures)
      fun score finite => Ensures.andThen (Ensures.note _) fun _ => Ensures.pure finite

/-- An effect can be printed. -/
theorem effect_ensures : Ensures effect Effect.Printable := by
  have adjusts : Ensures adjustment Effect.Printable := by
    refine Ensures.bind (name_ensures _) fun called quotable =>
      Ensures.andThen Ensures.advance fun operator =>
      Ensures.bind number_ensures fun delta finite => Ensures.pure ⟨quotable, ?_⟩
    split
    · cases delta <;> first | rfl | cases finite
    · exact finite
  have draws : Ensures arrowEffect Effect.Printable :=
    Ensures.bind (name_ensures _) fun source sourceQuotable =>
      Ensures.andThen Ensures.advance fun _ =>
      Ensures.bind (name_ensures _) fun target targetQuotable =>
      Ensures.bind (Ensures.parenthesized number_ensures) fun strength finite =>
      Ensures.pure ⟨sourceQuotable, targetQuotable, finite⟩
  have adopts : Ensures adoption Effect.Printable := by
    refine Ensures.nested (Ensures.andThen (Ensures.expect _) fun _ =>
      Ensures.bind behavior_ensures fun rule printable =>
        Ensures.andThen (Ensures.check _) fun _ => ?_)
    have rest : Ensures (do
        let _ ← expect .braceClose
        return Effect.adopt rule) Effect.Printable :=
      Ensures.andThen (Ensures.expect _) fun _ => Ensures.pure printable
    exact Ensures.ite (fun _ => Ensures.andThen Ensures.advance fun _ => rest) fun _ => rest
  refine Ensures.andThen Ensures.current fun t =>
    Ensures.andThen (Ensures.peek 1) fun following =>
    Ensures.ite (fun _ => adjusts) fun _ => Ensures.ite (fun _ => draws) fun _ =>
    Ensures.ite (fun _ => ?_) fun _ => Ensures.failAt t _
  refine Ensures.ite (fun _ => ?_) fun _ => Ensures.ite (fun _ => ?_) fun _ =>
    Ensures.ite (fun _ => Ensures.andThen Ensures.advance fun _ => adopts) fun _ =>
      Ensures.failAt t _
  · exact Ensures.andThen Ensures.advance fun _ =>
      Ensures.bind (Ensures.parenthesized (name_ensures _))
      fun domain quotable => Ensures.pure quotable
  · refine Ensures.andThen Ensures.advance fun _ =>
      Ensures.parenthesized (Ensures.bind (name_ensures _)
      fun source sourceQuotable => Ensures.andThen (Ensures.expect _) fun _ => ?_)
    exact Ensures.bind (name_ensures _) fun target targetQuotable =>
      Ensures.andThen (Ensures.expect _) fun _ =>
      Ensures.bind number_ensures fun strength finite =>
        Ensures.pure ⟨sourceQuotable, targetQuotable, finite⟩

/-- An evolution rule can be printed. -/
theorem evolutionRule_ensures : Ensures evolutionRule EvolutionRule.Printable :=
  Ensures.andThen (Ensures.expect _) fun _ =>
    Ensures.bind trigger_ensures fun t triggerPrintable =>
    Ensures.andThen (Ensures.expect _) fun _ =>
      Ensures.bind effect_ensures fun e effectPrintable =>
    Ensures.pure ⟨⟨t, rfl, triggerPrintable⟩, ⟨e, rfl, effectPrintable⟩⟩

/-- A section that is left out ensures what its entries would. -/
theorem optionalSection_ensures {α : Type} (keyword : Kind) {body : Parser (List α)}
    {post : α → Prop} (ensures : Ensures body fun values => ∀ x ∈ values, post x) :
    Ensures (optionalSection keyword body) fun values => ∀ x ∈ values, post x :=
  Ensures.andThen (Ensures.check _) fun _ => Ensures.ite
    (fun _ => Ensures.andThen Ensures.advance fun _ => ensures) fun _ => Ensures.pure (by simp)

/-- A document can be printed. -/
theorem document_ensures : Ensures document Personality.Printable := by
  refine Ensures.andThen Ensures.current fun t =>
    Ensures.ite (fun _ => Ensures.failAt t _) fun _ => ?_
  refine Ensures.andThen (Ensures.expect _) fun _ =>
    Ensures.bind (name_ensures _) fun called quotable =>
    Ensures.andThen (Ensures.expect _) fun _ => ?_
  refine Ensures.bind (optionalSection_ensures _ (entries_ensures _ _ trait_ensures))
    fun traits traitsPrintable => ?_
  refine Ensures.bind (optionalSection_ensures _ (entries_ensures _ _ domain_ensures))
    fun domains domainsPrintable => ?_
  refine Ensures.bind (optionalSection_ensures _ (entries_ensures _ _ behavior_ensures))
    fun behaviors behaviorsPrintable => ?_
  refine Ensures.bind (optionalSection_ensures _ (entries_ensures _ _ evolutionRule_ensures))
    fun evolution evolutionPrintable => ?_
  have ending : Ensures documentEnd fun _ => True := by
    refine Ensures.andThen Ensures.current fun t =>
      Ensures.ite (fun _ => Ensures.failAt t _) fun _ =>
      Ensures.ite (fun _ => ?_) fun _ => Ensures.failAt t _
    exact Ensures.andThen Ensures.advance fun _ =>
      Ensures.andThen Ensures.current fun following =>
      Ensures.ite (fun _ => Ensures.pure trivial) fun _ => Ensures.failAt following _
  exact Ensures.andThen ending fun _ =>
    Ensures.pure ⟨quotable, traitsPrintable, domainsPrintable, behaviorsPrintable,
      evolutionPrintable⟩

end Grammar

/-- Whatever a document is read to, with any options, can be printed. -/
theorem Personality.printable_of_read {options : ReadingOptions} {text : Text}
    {p : Personality}
    (read : (Personality.read options text).result = .ok p) : p.Printable := by
  unfold Personality.read at read
  dsimp only at read
  split at read
  · cases read
  rename_i stream scanned
  obtain ⟨clean, ends⟩ := Token.scan_clean scanned
  have cleanEnd := Token.clean_of_end ends
  cases outcome : Grammar.document ⟨stream.last, options.limit, 0⟩ stream.tokens with
  | mk events reply =>
    cases reply with
    | error e => simp [outcome] at read
    | ok answer =>
      obtain ⟨q, left⟩ := answer
      have printable := (Grammar.document_ensures _ _ _ q left cleanEnd clean outcome).1
      have same : q = p := by
        simp only [outcome] at read
        generalize (if options.strict = true then _ else _ : List ParseError) = held at read
        split at read
        · exact Except.ok.inj read
        · cases read
      exact same ▸ printable

end Persona
