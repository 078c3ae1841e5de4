import Persona.Proofs.Grammar.Lists

/-!
# The reader recognises the grammar

Where nesting is not limited, a strict reading of some tokens succeeds exactly when they
are a document of the grammar, and it gives the personality the document stands for.

Proof: The parts of a document have been compared with the grammar one by one. What is
left are the lists of the sections, whose entries skip nothing when the reading is
strict, and the order of the sections, which the keywords decide: a section that is left
out is followed by the keyword of a later one or by the closing brace.
-/

namespace Persona.Grammar

open Grammar.Parser
open Spelling (fixed word quoted call)

variable {α : Type} {rest : List Spelling}

/-- Lists with semicolons between their entries are a grammar of lists. -/
theorem ListPhrase.rules (phrase : List Spelling → α → Prop) :
    ListRules false phrase (ListPhrase phrase) where
  none := .none
  separated := .more
  joined := by
    rintro e _ value _ first - (⟨⟨⟩⟩ | ⟨rfl, rfl⟩)
    rw [List.append_nil]
    exact .last first

/-- Domains are a grammar of lists without a need for separators. -/
theorem DomainsPhrase.rules : ListRules true DomainPhrase DomainsPhrase where
  none := .none
  separated := .separated
  joined first others _ := .plain first others

/-- Traits can be the entries of a list. -/
theorem trait_acceptsEntries : AcceptsEntries trait TraitPhrase where
  starts := by
    rintro e value (⟨named, -⟩ | ⟨named, -, -⟩)
    · exact named.starts _
    · exact named.starts _
  accepts := trait_accepts

/-- Entries of a domain can be the entries of a list. -/
theorem domainEntry_acceptsEntries (owner : Text) :
    AcceptsEntries (domainEntry owner) (DomainEntryPhrase owner) where
  starts := by
    rintro e value (⟨named, -⟩ | leads | ⟨named, -⟩)
    · exact named.starts _
    · cases leads with
      | forth | both => exact ⟨_, _, rfl, nofun, nofun⟩
    · exact named.starts _
  accepts phrased _ := domainEntry_accepts phrased

/-- Behavior rules can be the entries of a list. -/
theorem behavior_acceptsEntries : AcceptsEntries behavior BehaviorPhrase where
  starts := by
    rintro e value ⟨-, -⟩
    exact ⟨_, _, rfl, nofun, nofun⟩
  accepts phrased _ := behavior_accepts phrased

/-- Evolution rules can be the entries of a list. -/
theorem evolutionRule_acceptsEntries : AcceptsEntries evolutionRule EvolutionPhrase where
  starts := by
    rintro e value ⟨-, -⟩
    exact ⟨_, _, rfl, nofun, nofun⟩
  accepts := evolutionRule_accepts

/-- What is read as a domain is one, where nothing was skipped. -/
theorem domain_givesEntries : GivesEntries domain DomainPhrase fun _ _ => True := by
  intro setting tokens
  refine YieldsFrom.fixed .domain (by decide) rfl fun d rest _ isDomain => ?_
  refine YieldsFrom.bind (YieldsFrom.ofTakes ((name_derives "domain").inParens setting rest)
    fun events used value _ silent _ holds => (⟨silent, holds⟩ : Silent events ∧ _)) ?_
  rintro events named called left - ⟨-, n, spelledName, phrase⟩
  refine YieldsFrom.bind (entries_yields (ListPhrase.rules _)
    (domainEntry_derives called).givesEntries setting left) ?_
  rintro later body all left - ⟨-, exactly⟩
  refine YieldsFrom.pure ⟨trivial, fun silent => ?_⟩
  obtain ⟨e, spelled, listed⟩ :=
    exactly (by simpa [silent_append] using (silent_append.mp silent).2)
  simpa [isDomain, spelledName, spelled, call, braced] using DomainPhrase.block phrase listed

/-- A domain is accepted. -/
theorem domain_accepts {e : List Spelling} {d : Domain} (phrase : DomainPhrase e d) :
    Accepts domain (e ++ rest) (· = d) rest := by
  obtain @⟨n, e, called, all, named, filled⟩ := phrase
  have body : Accepts (entries ("domain " ++ called) false (domainEntry called))
      (braced e ++ rest) (· = all) rest :=
    entries_accepts fun fuel enough =>
      entriesWithin_accepts (domainEntry_acceptsEntries called) filled enough
  simp only [call, List.cons_append, List.nil_append]
  refine Accepts.bind (Accepts.expect rfl) fun _ _ => ?_
  refine Accepts.andThen (Accepts.parenthesized (name_accepts "domain" named)) ?_
  exact Accepts.andThen body (Accepts.pure rfl)

/-- A domain starts with its keyword. -/
theorem DomainPhrase.opens {e : List Spelling} {d : Domain} (phrase : DomainPhrase e d) :
    ∃ others, e = fixed .domain :: others := by
  obtain ⟨-, -⟩ := phrase
  exact ⟨_, rfl⟩

/-- Behind a domain there is no semicolon but its own. -/
theorem DomainsPhrase.next {e : List Spelling} {ds : List Domain}
    (phrase : DomainsPhrase e ds) :
    nextKind (e ++ fixed .braceClose :: rest) ≠ .semicolon := by
  cases phrase with
  | none => simp [nextKind, fixed]
  | plain first | separated first =>
    obtain ⟨others, rfl⟩ := first.opens
    simp [nextKind, fixed]

/-- Domains are accepted between the braces of their section, with fuel for
every token. -/
theorem domainsWithin_accepts {e : List Spelling} {ds : List Domain}
    (phrase : DomainsPhrase e ds) {fuel : Nat} (enough : e.length < fuel) :
    Accepts (entriesWithin "knowledge" true domain fuel) (e ++ fixed .braceClose :: rest)
      (· = ds) rest := by
  have starts {e : List Spelling} {d : Domain} (first : DomainPhrase e d) : Starts e ∧
      0 < e.length := by
    obtain ⟨others, rfl⟩ := first.opens
    exact ⟨⟨_, _, rfl, nofun, nofun⟩, Nat.succ_pos _⟩
  induction phrase generalizing fuel with
  | none =>
    obtain ⟨fuel, rfl⟩ :=
      Nat.exists_eq_add_one_of_ne_zero (Nat.ne_of_gt (Nat.zero_lt_of_lt enough))
    exact entriesWithin_accepts_close fuel
  | @plain e f d ds first others inductionHypothesis =>
    obtain ⟨fuel, rfl⟩ :=
      Nat.exists_eq_add_one_of_ne_zero (Nat.ne_of_gt (Nat.zero_lt_of_lt enough))
    have less : f.length < fuel := by
      have some := (starts first).2
      rw [List.length_append] at enough
      omega
    rw [List.append_assoc]
    refine entriesWithin_accepts_more ((starts first).1.append _) ?_ (inductionHypothesis less)
    exact joined_accepts (domain_accepts first) others.next (.inl rfl)
  | @separated e f d ds first others inductionHypothesis =>
    obtain ⟨fuel, rfl⟩ :=
      Nat.exists_eq_add_one_of_ne_zero (Nat.ne_of_gt (Nat.zero_lt_of_lt enough))
    have less : f.length < fuel := by
      rw [List.length_append, List.length_cons] at enough
      omega
    rw [List.append_assoc, List.cons_append]
    refine entriesWithin_accepts_more ((starts first).1.append _) ?_ (inductionHypothesis less)
    exact separated_accepts (domain_accepts first)

section Sections

variable {keyword : Kind} {p : Parser (List α)} {phrase loose : List Spelling → α → Prop}
  {body : List Spelling → List α → Prop}

/-- What is read as a section that may be left out is one, where nothing was skipped. -/
theorem optionalSection_yields (inside : keyword ≠ .endOfInput)
    (bare : keyword.carriesText = false)
    (yields : ∀ setting tokens, YieldsFrom p setting tokens fun events used values _ =>
      Written loose used values ∧ (Silent events → ∃ e, used.map Token.symbol = braced e ∧
      body e values))
    (setting : Setting) (tokens : List Token) :
    YieldsFrom (optionalSection keyword p) setting tokens fun events used values _ =>
      Written loose used values ∧
      (Silent events → SectionPhrase keyword body (used.map Token.symbol) values) := by
  refine YieldsFrom.check fun t seen => YieldsFrom.ite (fun isKind => ?_) fun _ =>
    YieldsFrom.pure ?_
  · have isKind : t.kind = keyword := by simpa using isKind
    refine YieldsFrom.take seen (by rwa [isKind]) fun rest _ => (yields setting rest).imp ?_
    rintro events used values left ⟨written, exactly⟩
    refine ⟨written.mono (List.suffix_cons t used).isInfix, fun silent => ?_⟩
    obtain ⟨e, spelled, filled⟩ := exactly silent
    simpa [Token.symbol_fixed isKind bare, spelled] using SectionPhrase.present filled
  · exact ⟨by simp [Written], fun _ => .absent⟩

/-- A section is accepted in front of anything but another one of its kind. -/
theorem optionalSection_accepts {e : List Spelling} {values : List α}
    (phrased : SectionPhrase keyword body e values) (other : nextKind rest ≠ keyword)
    (accepts : ∀ e values, body e values → Accepts p (braced e ++ rest) (· = values) rest) :
    Accepts (optionalSection keyword p) (e ++ rest) (· = values) rest := by
  cases phrased with
  | absent =>
    refine Accepts.andThen (Accepts.check keyword) ?_
    rw [if_neg (by simpa using other)]
    exact Accepts.pure rfl
  | present filled =>
    refine Accepts.andThen (Accepts.check keyword) ?_
    rw [if_pos (by simp [nextKind, fixed])]
    exact Accepts.skip fun _ _ => accepts _ _ filled

/-- A section is followed by what follows it, or starts with its keyword. -/
theorem SectionPhrase.next {e : List Spelling} {values : List α}
    (phrased : SectionPhrase keyword body e values) :
    nextKind (e ++ rest) = keyword ∨ nextKind (e ++ rest) = nextKind rest := by
  cases phrased with
  | absent => exact .inr rfl
  | present filled => exact .inl rfl

end Sections

/-- What ends a document is its closing brace, at the end of the input. -/
theorem documentEnd_takes (setting : Setting) (tokens : List Token) :
    TakesFrom documentEnd setting tokens fun used _ left =>
      used.map Token.symbol = [fixed .braceClose] ∧ ∃ t, Sees setting left t ∧
      t.kind = .endOfInput := by
  refine TakesFrom.look fun t seen => TakesFrom.ite (fun _ => TakesFrom.failAt t _) fun _ => ?_
  refine TakesFrom.ite (fun isClose => ?_) fun _ => TakesFrom.failAt t _
  refine TakesFrom.take seen (by simp [isClose]) fun rest _ =>
    TakesFrom.look fun following sees => ?_
  refine TakesFrom.ite (fun isEnd => TakesFrom.pure ⟨?_, following, sees, isEnd⟩) fun _ =>
    TakesFrom.failAt following _
  simp [Token.symbol_fixed isClose rfl]

/-- What a reading of a document says: where its entries were written, that nothing
follows it, and that it is a document of the grammar where nothing was skipped. -/
structure ReadDocument (setting : Setting) (events : List Event) (used : List Token)
    (p : Personality) (left : List Token) : Prop where
  traits : Written TraitPhrase used p.traits
  behaviors : Written BehaviorPhrase used p.behaviors
  evolution : Written EvolutionPhrase used p.evolution
  ended : ∃ t, Sees setting left t ∧ t.kind = .endOfInput
  derives : Silent events → DocumentPhrase (used.map Token.symbol ++ [fixed .endOfInput]) p

/-- What is read as a document is one, where nothing was skipped. -/
theorem document_yields (setting : Setting) (tokens : List Token) :
    YieldsFrom document setting tokens (ReadDocument setting) := by
  refine YieldsFrom.look fun first _ => YieldsFrom.ite (fun _ => YieldsFrom.failAt first _)
    fun _ => ?_
  refine YieldsFrom.fixed .personality (by decide) rfl fun k rest _ isPersonality => ?_
  refine YieldsFrom.bind (YieldsFrom.ofTakes (name_derives "personality" setting rest)
    fun events used value _ silent _ holds => (⟨silent, holds⟩ : Silent events ∧ _)) ?_
  rintro _ _ called rest - ⟨-, n, rfl, named⟩
  refine YieldsFrom.fixed .braceOpen (by decide) rfl fun o rest _ isOpen => ?_
  refine YieldsFrom.bind (optionalSection_yields (by decide) rfl
    (entries_yields (ListPhrase.rules _) trait_derives.givesEntries) setting rest) ?_
  rintro traitEvents t traits rest - ⟨traitsWritten, traitful⟩
  refine YieldsFrom.bind (optionalSection_yields (by decide) rfl
    (entries_yields DomainsPhrase.rules domain_givesEntries) setting rest) ?_
  rintro knowledgeEvents d knowledge rest - ⟨-, knowing⟩
  refine YieldsFrom.bind (optionalSection_yields (by decide) rfl
    (entries_yields (ListPhrase.rules _) behavior_derives.givesEntries) setting rest) ?_
  rintro behaviorEvents b behaviors rest - ⟨behaviorsWritten, behaving⟩
  refine YieldsFrom.bind (optionalSection_yields (by decide) rfl
    (entries_yields (ListPhrase.rules _) evolutionRule_derives.givesEntries) setting rest) ?_
  rintro evolutionEvents e evolution rest - ⟨evolutionWritten, evolving⟩
  refine YieldsFrom.bind (YieldsFrom.ofTakes (documentEnd_takes setting rest)
    fun events used value _ silent _ holds => (⟨silent, holds⟩ : Silent events ∧ _)) ?_
  rintro endEvents c _ rest - ⟨-, isClose, ended⟩
  refine YieldsFrom.pure ⟨?_, ?_, ?_, ended, fun silent => ?_⟩
  · exact traitsWritten.mono ⟨[k, n, o], d ++ (b ++ (e ++ c)), by simp⟩
  · exact behaviorsWritten.mono ⟨k :: n :: o :: (t ++ d), e ++ c, by simp⟩
  · exact evolutionWritten.mono ⟨k :: n :: o :: (t ++ (d ++ b)), c, by simp⟩
  · simp only [silent_append] at silent
    obtain ⟨-, silentTraits, silentKnowledge, silentBehaviors, silentEvolution, -⟩ := silent
    simpa [isPersonality, isOpen, isClose, braced] using DocumentPhrase.document named
      (traitful silentTraits)
      (knowing silentKnowledge) (behaving silentBehaviors) (evolving silentEvolution)

/-- The closing brace at the end of the input ends a document. -/
theorem documentEnd_accepts : Accepts documentEnd [fixed .braceClose] (fun _ => True) [] := by
  refine Accepts.atKind fun _ _ _ => Accepts.skip fun _ _ =>
    Accepts.bind Accepts.current fun t isEnd => ?_
  rw [if_pos (show t.kind = .endOfInput from isEnd)]
  exact Accepts.pure trivial

/-- A document is accepted up to the end of the input. -/
theorem document_accepts {symbols : List Spelling} {p : Personality}
    (phrase : DocumentPhrase (symbols ++ [fixed .endOfInput]) p) :
    Accepts document symbols (· = p) [] := by
  generalize whole : symbols ++ [fixed .endOfInput] = all at phrase
  obtain @⟨n, t, k, b, e, called, traits, knowledge, behaviors, evolution, named, traitful,
      knowing, behaving, evolving⟩ := phrase
  have same : symbols ++ [fixed .endOfInput] =
      (fixed .personality :: n :: braced (t ++ (k ++ (b ++ e)))) ++ [fixed .endOfInput] :=
        whole
  obtain rfl := List.append_cancel_right same
  have afterEvolution : nextKind [fixed .braceClose] = .braceClose := rfl
  have afterBehaviors : nextKind (e ++ [fixed .braceClose]) = .evolution ∨ _ := evolving.next
  have afterKnowledge : nextKind (b ++ (e ++ [fixed .braceClose])) = .behaviors ∨ _ :=
    behaving.next
  have afterTraits : nextKind (k ++ (b ++ (e ++ [fixed .braceClose]))) = .knowledge ∨ _ :=
    knowing.next
  rw [afterEvolution] at afterBehaviors
  simp only [braced, List.append_assoc]
  refine Accepts.atKind fun _ _ _ => Accepts.bind (Accepts.expect rfl) fun _ _ => ?_
  refine Accepts.andThen (name_accepts "personality" named)
    (Accepts.bind (Accepts.expect rfl) fun _ _ => ?_)
  refine Accepts.andThen (optionalSection_accepts traitful ?_ fun _ _ filled =>
    entries_accepts fun _ enough => entriesWithin_accepts trait_acceptsEntries filled
      enough) ?_
  · rcases afterTraits with is | same
    · simp [is]
    · rcases afterKnowledge with is | same'
      · simp [same, is]
      · rcases afterBehaviors with is | is <;> simp [same, same', is]
  refine Accepts.andThen (optionalSection_accepts knowing ?_ fun _ _ filled =>
    entries_accepts fun _ enough => domainsWithin_accepts filled enough) ?_
  · rcases afterKnowledge with is | same
    · simp [is]
    · rcases afterBehaviors with is | is <;> simp [same, is]
  refine Accepts.andThen (optionalSection_accepts behaving ?_ fun _ _ filled =>
    entries_accepts fun _ enough => entriesWithin_accepts behavior_acceptsEntries filled
      enough) ?_
  · rcases afterBehaviors with is | is <;> simp [is]
  refine Accepts.andThen (optionalSection_accepts evolving (by simp [nextKind, fixed])
    fun _ _ filled =>
    entries_accepts fun _ enough => entriesWithin_accepts evolutionRule_acceptsEntries
      filled enough) ?_
  exact Accepts.bind documentEnd_accepts fun _ _ => Accepts.pure rfl

/-- A strict reading of these tokens gives this personality: the document is read to its
end, and no entry of it is skipped. -/
def ReadsStrictly (setting : Setting) (tokens : List Token) (p : Personality) : Prop :=
  (∃ left, (document setting tokens).outcome = .ok (p, left)) ∧
    Silent (document setting tokens).events

/-- What is read strictly is a document of the grammar, whatever the nesting limit is. -/
theorem ReadsStrictly.derives {setting : Setting} {tokens : List Token} {p : Personality}
    (read : ReadsStrictly setting tokens p) (ends : setting.last.kind = .endOfInput)
    (inside : ∀ t ∈ tokens, t.kind ≠ .endOfInput) :
    DocumentPhrase ((tokens ++ [setting.last]).map Token.symbol) p := by
  obtain ⟨⟨left, outcome⟩, silent⟩ := read
  obtain ⟨used, rfl, facts⟩ := document_yields setting tokens ends p left outcome
  obtain ⟨t, seen, isEnd⟩ := facts.ended
  -- Only the last token ends the input, so nothing was left.
  obtain rfl : left = [] := by
    cases left with
    | nil => rfl
    | cons first others =>
      obtain rfl : first = t := seen
      exact absurd isEnd (inside first (by simp))
  simpa [Token.symbol_fixed ends rfl] using facts.derives silent

/-- A document of the grammar is read strictly where nesting is not limited. -/
theorem DocumentPhrase.readsStrictly {last : Token} {tokens : List Token} {limit : Int}
    {depth : Nat} {p : Personality}
    (phrase : DocumentPhrase ((tokens ++ [last]).map Token.symbol) p)
    (ends : last.kind = .endOfInput)
    (unlimited : limit ≤ 0) : ReadsStrictly ⟨last, limit, depth⟩ tokens p := by
  rw [List.map_append, List.map_singleton, Token.symbol_fixed ends rfl] at phrase
  obtain ⟨silent, _, left, outcome, rfl, -⟩ :=
    document_accepts phrase ⟨last, limit, depth⟩ tokens ends unlimited rfl
  exact ⟨⟨left, outcome⟩, silent⟩

end Persona.Grammar

namespace Persona

/-- No token of a text is the end but the last one. -/
theorem Scanner.collect_inside {fuel : Nat} {s : Scanner} {stream : Scanner.Stream}
    (collected : s.collect fuel = .ok stream) : ∀ t ∈ stream.tokens, t.kind ≠ .endOfInput := by
  induction fuel generalizing s stream with
  | zero =>
    obtain rfl := Except.ok.inj collected
    simp
  | succ fuel inductionHypothesis =>
    simp only [Scanner.collect] at collected
    split at collected
    · cases collected
    · split at collected
      · obtain rfl := Except.ok.inj collected
        simp
      · rename_i inside
        cases later : s.next.2.collect fuel with
        | error e =>
          rw [later] at collected
          cases collected
        | ok others =>
          rw [later] at collected
          obtain rfl := Except.ok.inj collected
          simpa using ⟨inside, inductionHypothesis later⟩

/-- A strict reading succeeds exactly when the tokens of the text are read strictly. -/
theorem Personality.read_strict {options : ReadingOptions} (strict : options.strict = true)
    (text : Text) (p : Personality) : (Personality.read options text).result = .ok p ↔
      ∃ stream, Token.scan text = .ok stream ∧
        Grammar.ReadsStrictly ⟨stream.last, options.limit, 0⟩ stream.tokens p := by
  unfold Personality.read
  dsimp only
  cases Token.scan text with
  | error e => simp
  | ok stream =>
    simp only [strict, if_true, Except.ok.injEq, exists_eq_left', Grammar.ReadsStrictly]
    cases outcome :
      (Grammar.document ⟨stream.last, options.limit, 0⟩ stream.tokens).outcome with
    | error e => simp
    | ok answer =>
      obtain ⟨q, left⟩ := answer
      rw [← notices_eq_nil_iff (Source.ofText options.file text)]
      by_cases quiet :
        (Grammar.document ⟨stream.last, options.limit, 0⟩ stream.tokens).events.filterMap
        (Event.notice? (Source.ofText options.file text)) = []
      · simp [quiet]
      · simp [quiet]

namespace Personality

/-- Where nesting is not limited, tokens with their end are read strictly exactly when
they are a document of the grammar for the personality that is read, and a text is read
strictly exactly when its tokens are. -/
theorem read_strict_iff_document (p : Personality) :
    (∀ (last : Token) (tokens : List Token) (limit : Int), last.kind = .endOfInput →
      (∀ t ∈ tokens, t.kind ≠ .endOfInput) → limit ≤ 0 →
        (Grammar.ReadsStrictly ⟨last, limit, 0⟩ tokens p ↔
          Grammar.DocumentPhrase ((tokens ++ [last]).map Token.symbol) p)) ∧
    ∀ (options : ReadingOptions) (text : Text), options.strict = true → options.limit ≤ 0 →
      ((Personality.read options text).result = .ok p ↔
      ∃ stream, Token.scan text = .ok stream ∧
        Grammar.DocumentPhrase ((stream.tokens ++ [stream.last]).map Token.symbol) p) := by
  have ofTokens (last : Token) (tokens : List Token) (limit : Int)
      (ends : last.kind = .endOfInput)
      (inside : ∀ t ∈ tokens, t.kind ≠ .endOfInput) (unlimited : limit ≤ 0) :
      Grammar.ReadsStrictly ⟨last, limit, 0⟩ tokens p ↔
        Grammar.DocumentPhrase ((tokens ++ [last]).map Token.symbol) p :=
    ⟨fun read => read.derives ends inside, fun phrase => phrase.readsStrictly ends unlimited⟩
  refine ⟨ofTokens, fun options text strict unlimited => ?_⟩
  rw [read_strict strict]
  refine exists_congr fun stream => and_congr_right fun scanned => ?_
  exact ofTokens stream.last stream.tokens options.limit (Token.scan_clean scanned).2
    (Scanner.collect_inside scanned) unlimited

/-- A document in which keywords are names, the word for a state is a trait, an unknown
word is a trigger and a brace closes a rule that a semicolon has already ended. -/
def entangled : Text :=
  "personality when
   \x7b behaviors \x7b when tired > 1 -> prefer \"a\"; when tired -> seek (\"b\") \x7d
   evolution \x7b if mood(2 - 1) then
     if -= 1; if learns(then) then new_behavior \x7b when \"c\" -> avoid \"d\"; \x7d \x7d \x7d"

/-- One. -/
def one : Binary64 := .finite false ⟨0x3FF0000000000000, by decide⟩

/-- What the entangled document stands for. -/
def disentangled : Personality where
  name := "when"
  traits := []
  knowledge := []
  behaviors := [⟨some (.traitAbove "tired" one), some (.prefer "a")⟩,
    ⟨some .tired, some (.seek "b")⟩]
  evolution := [⟨some (.feedback one), some (.adjust "if" one.neg)⟩,
    ⟨some (.learns "then"), some (.adopt ⟨some (.context "c"), some (.avoid "d")⟩)⟩]

/-- The document is read strictly, by text and by tokens, and its symbols are those of
what it stands for. -/
theorem read_strict_iff_document_entangled :
    ∃ stream, Token.scan entangled = .ok stream ∧
      Grammar.DocumentPhrase ((stream.tokens ++ [stream.last]).map Token.symbol) disentangled ∧
      Grammar.ReadsStrictly ⟨stream.last, 0, 0⟩ stream.tokens disentangled := by
  have read : (Personality.read { strict := true, limit := 0 } entangled).result =
      .ok disentangled := by
    decide +kernel
  obtain ⟨byTokens, byText⟩ := read_strict_iff_document disentangled
  obtain ⟨stream, scanned, phrase⟩ := (byText _ entangled rfl le_rfl).mp read
  exact ⟨stream, scanned, phrase,
    (byTokens stream.last stream.tokens 0 (Token.scan_clean scanned).2
    (Scanner.collect_inside scanned) le_rfl).mpr phrase⟩

end Personality

end Persona
