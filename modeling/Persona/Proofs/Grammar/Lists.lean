import Persona.Proofs.Grammar.Acceptance
import Persona.Proofs.Grammar.Printable

/-!
# Lists of entries and the grammar

A list skips what it cannot read, so what it takes is in general no list of the grammar.
Two things can be said of it nevertheless: every value it gives was written somewhere in
the tokens it took, and where it skipped nothing those tokens are a list of the grammar
for these values. In the other direction, a list of the grammar is accepted, and nothing
of it is skipped.

The two kinds of list differ in whether an entry needs a separator before the next one.
What they share is said once, of any grammar of lists that is closed under putting an
entry in front.
-/

namespace Persona.Grammar

open Grammar.Parser
open Spelling (fixed word quoted call)

variable {α β : Type}

/-- If the parser succeeds here, then of its events, what it took, its value and what it
left the condition holds. -/
def YieldsFrom (p : Parser α) (setting : Setting) (tokens : List Token)
    (post : List Event → List Token → α → List Token → Prop) : Prop :=
  setting.last.kind = .endOfInput → ∀ value left,
    (p setting tokens).outcome = .ok (value, left) →
    ∃ used, tokens = used ++ left ∧ post (p setting tokens).events used value left

namespace YieldsFrom

variable {p q : Parser α} {setting : Setting} {tokens : List Token}
  {post weaker : List Event → List Token → α → List Token → Prop}

/-- What is taken without a notice is yielded in silence. -/
theorem ofTakes {m : List Token → α → List Token → Prop} (takes : TakesFrom p setting tokens m)
    (holds : ∀ events used value left, Silent events → tokens = used ++ left →
      m used value left →
      post events used value left) : YieldsFrom p setting tokens post := by
  intro ends value left read
  obtain ⟨silent, taken⟩ := takes ends
  obtain ⟨used, split, taken⟩ := taken value left read
  exact ⟨used, split, holds _ used value left silent split taken⟩

/-- A failure yields nothing. -/
theorem failAt (token : Token) (cause : SyntaxError.Cause) :
    YieldsFrom (Parser.failAt token cause : Parser α) setting tokens post := by
  rintro _ _ _ ⟨⟩

/-- Reading nothing. -/
theorem pure {value : α} (holds : post [] [] value tokens) :
    YieldsFrom (Pure.pure value) setting tokens post := by
  rintro _ _ _ ⟨rfl⟩
  exact ⟨[], rfl, holds⟩

/-- Reading one part and then another. -/
theorem bind {m : List Event → List Token → α → List Token → Prop} {next : α → Parser β}
    {wanted : List Event → List Token → β → List Token → Prop}
    (yields : YieldsFrom p setting tokens m)
    (continues : ∀ events used value left, tokens = used ++ left → m events used value left →
      YieldsFrom (next value) setting left fun later more =>
    wanted (events ++ later) (used ++ more)) :
    YieldsFrom (p >>= next) setting tokens wanted := by
  intro ends result rest read
  cases outcome : (p setting tokens).outcome with
  | error e =>
    rw [Parser.bind_error outcome next] at read
    cases read
  | ok answer =>
    obtain ⟨value, left⟩ := answer
    rw [Parser.bind_ok outcome next] at read ⊢
    obtain ⟨used, rfl, holds⟩ := yields ends value left outcome
    obtain ⟨more, rfl, finished⟩ := continues _ used value left rfl holds ends result rest read
    exact ⟨used ++ more, (List.append_assoc ..).symm, finished⟩

/-- A weaker conclusion. -/
theorem imp (yields : YieldsFrom p setting tokens post)
    (implies : ∀ events used value left, post events used value left →
      weaker events used value left) :
    YieldsFrom p setting tokens weaker := by
  intro ends value left read
  obtain ⟨used, split, holds⟩ := yields ends value left read
  exact ⟨used, split, implies _ used value left holds⟩

/-- Either of two parsers. -/
theorem ite {condition : Prop} [Decidable condition]
    (holds : condition → YieldsFrom p setting tokens post)
    (fails : ¬ condition → YieldsFrom q setting tokens post) :
    YieldsFrom (if condition then p else q) setting tokens post := by
  split
  · exact holds ‹_›
  · exact fails ‹_›

/-- Looking at the next token. -/
theorem look {next : Token → Parser α}
    (continues : ∀ t, Sees setting tokens t → YieldsFrom (next t) setting tokens post) :
    YieldsFrom (Parser.current >>= next) setting tokens post := by
  have seen : Sees setting tokens (tokens[0]?.getD setting.last) := by cases tokens <;> rfl
  exact continues _ seen

/-- Comparing the kind of the next token. -/
theorem check {kind : Kind} {next : Bool → Parser α}
    (continues : ∀ t, Sees setting tokens t →
      YieldsFrom (next (t.kind = kind)) setting tokens post) :
    YieldsFrom (Parser.check kind >>= next) setting tokens post :=
  look continues

/-- Taking a token that was seen to be there. -/
theorem take {t : Token} {next : Token → Parser α} (seen : Sees setting tokens t)
    (there : t.kind ≠ .endOfInput) (continues : ∀ rest, tokens = t :: rest →
      YieldsFrom (next t) setting rest fun events more => post events (t :: more)) :
    YieldsFrom (Parser.advance >>= next) setting tokens post := by
  intro ends value left read
  cases tokens with
  | nil =>
    obtain rfl : setting.last = t := seen
    exact absurd ends there
  | cons first rest =>
    obtain rfl : first = t := seen
    obtain ⟨used, rfl, holds⟩ := continues rest rfl ends value left read
    exact ⟨first :: used, rfl, holds⟩

/-- A symbol or keyword that is asked for. -/
theorem fixed {next : Token → Parser α} (kind : Kind) (inside : kind ≠ .endOfInput)
    (bare : kind.carriesText = false)
    (continues : ∀ t rest, tokens = t :: rest → t.symbol = .fixed kind →
      YieldsFrom (next t) setting rest fun events more => post events (t :: more)) :
    YieldsFrom (Parser.expect kind >>= next) setting tokens post := by
  have asked : YieldsFrom (Parser.expect kind) setting tokens fun events used t _ =>
      events = [] ∧ used = [t] ∧ t.symbol = .fixed kind := by
    refine look fun t seen => ite (fun isKind => ?_) fun _ => failAt t _
    change YieldsFrom (Parser.advance >>= Pure.pure) setting tokens _
    exact take seen (by rwa [isKind]) fun rest _ =>
      pure ⟨rfl, rfl, Token.symbol_fixed isKind bare⟩
  refine bind asked ?_
  rintro _ _ t rest rfl ⟨rfl, rfl, symbol⟩
  exact continues t rest rfl symbol

end YieldsFrom

/-- Each of the values was written somewhere in these tokens. -/
def Written (phrase : List Spelling → α → Prop) (tokens : List Token)
    (values : List α) : Prop :=
  ∀ value ∈ values, ∃ written, written <:+: tokens ∧ phrase (written.map Token.symbol) value

/-- What was written in a part was written in the whole. -/
theorem Written.mono {phrase : List Spelling → α → Prop} {part all : List Token}
    {values : List α} (written : Written phrase part values) (inside : part <:+: all) :
    Written phrase all values := by
  intro value member
  obtain ⟨tokens, among, holds⟩ := written value member
  exact ⟨tokens, among.trans inside, holds⟩

/-- Values that were written one after the other. -/
theorem Written.append {phrase : List Spelling → α → Prop} {first second : List Token}
    {values others : List α}
    (before : Written phrase first values) (after : Written phrase second others) :
    Written phrase (first ++ second) (values ++ others) := by
  intro value member
  rcases List.mem_append.mp member with early | late
  · exact before.mono (List.prefix_append first second).isInfix value early
  · exact after.mono (List.suffix_append first second).isInfix value late

/-- What is known of a parser of entries: its values are written as `loose` says, and
where it skips nothing as `phrase` says. -/
def GivesEntries (entry : Parser α) (phrase loose : List Spelling → α → Prop) : Prop :=
  ∀ setting tokens, YieldsFrom entry setting tokens fun events used value _ =>
    loose (used.map Token.symbol) value ∧
      (Silent events → phrase (used.map Token.symbol) value)

/-- An entry that never skips anything. -/
theorem Derives.givesEntries {entry : Parser α} {phrase : List Spelling → α → Prop}
    (derives : Derives entry phrase) :
    GivesEntries entry phrase phrase :=
  fun setting tokens => YieldsFrom.ofTakes (derives setting tokens) fun _ _ _ _ _ _ holds =>
    ⟨holds, fun _ => holds⟩

/-- The next token closes the list. -/
def AtClose (setting : Setting) (tokens : List Token) : Prop := ∃ t, Sees setting tokens t ∧
    t.kind = .braceClose

section Turns

variable {entry : Parser α} {phrase loose : List Spelling → α → Prop} {list : Text}
    {optional : Bool}

/-- How an entry is set off from what follows it. -/
def SetOff (optional : Bool) (setting : Setting) (written used : List Token)
    (left : List Token) : Prop :=
  used.map Token.symbol = written.map Token.symbol ++ [fixed .semicolon] ∨
    used = written ∧ (optional = true ∨ AtClose setting left)

/-- An entry with the separator after it. -/
theorem separated_yields (gives : GivesEntries entry phrase loose) (setting : Setting)
    (tokens : List Token) :
    YieldsFrom (separated list optional entry) setting tokens fun events used value left =>
      ∃ written, written <+: used ∧ loose (written.map Token.symbol) value ∧
        (Silent events → phrase (written.map Token.symbol) value ∧
        SetOff optional setting written used left) := by
  refine YieldsFrom.bind (gives setting tokens) ?_
  rintro events written value left - ⟨holds, exactly⟩
  refine YieldsFrom.look fun t seen => YieldsFrom.ite (fun isSemicolon => ?_) fun _ => ?_
  · refine YieldsFrom.take seen (by simp [isSemicolon]) fun rest _ => YieldsFrom.pure ?_
    refine ⟨written, List.prefix_append .., holds, fun silent =>
      ⟨exactly (silent_append.mp silent).1, .inl ?_⟩⟩
    simp [Token.symbol_fixed isSemicolon rfl]
  · refine YieldsFrom.ite (fun ended => YieldsFrom.pure ?_) fun _ => YieldsFrom.failAt t _
    refine ⟨written, List.prefix_append .., holds, fun silent =>
      ⟨exactly (silent_append.mp silent).1, .inr ?_⟩⟩
    simp only [Bool.or_eq_true, decide_eq_true_eq] at ended
    exact ⟨List.append_nil _, ended.symm.imp_right fun isClose => ⟨t, seen, isClose⟩⟩

/-- What is skipped is a first part of the tokens. -/
theorem afterSeparator?_suffix {depth : Nat} {tokens left : List Token}
    (found : afterSeparator? depth tokens = some left) : ∃ used, tokens = used ++ left := by
  fun_induction afterSeparator? depth tokens with
  | case1 => cases found
  | case2 depth t rest _ inductionHypothesis | case3 depth t rest _ inductionHypothesis
  | case4 depth t rest _ inductionHypothesis | case6 depth t rest _ _ inductionHypothesis
  | case8 depth t rest _ _ inductionHypothesis
  | case9 depth t rest _ _ _ _ _ inductionHypothesis =>
    obtain ⟨used, rfl⟩ := inductionHypothesis found
    exact ⟨t :: used, rfl⟩
  | case5 => cases found
  | case7 t rest => 
    obtain rfl : rest = left := Option.some.inj found
    exact ⟨[t], rfl⟩

/-- One turn of a list: it gives at most one value, and where it skips nothing
it gives one. -/
theorem recovering_yields (gives : GivesEntries entry phrase loose) (setting : Setting)
    (tokens : List Token) :
    YieldsFrom (recovering list (separated list optional entry)) setting tokens
      fun events used value left =>
      Written loose used value.toList ∧ (Silent events → ∃ v written, value = some v ∧
        phrase (written.map Token.symbol) v ∧ SetOff optional setting written used left) := by
  intro ends value left read
  obtain ⟨v, rfl, outcome⟩ | ⟨e, rfl, failed, found⟩ := recovering_cases read
  · obtain ⟨used, split, written, inside, holds, exactly⟩ :=
      separated_yields gives setting tokens ends v left outcome
    rw [recovering_read outcome]
    refine ⟨used, split, ?_, fun silent => ?_⟩
    · intro w isValue
      obtain rfl : w = v := by simpa using isValue
      exact ⟨written, inside.isInfix, holds⟩
    · obtain ⟨phrased, setOff⟩ := exactly silent
      exact ⟨v, written, rfl, phrased, setOff⟩
  · obtain ⟨used, split⟩ := afterSeparator?_suffix found
    rw [recovering_skipped failed found]
    refine ⟨used, split, by simp [Written], fun silent => ?_⟩
    -- A skipped entry is noticed, so this turn was not silent.
    exact absurd (silent (.skipped list e) (by simp)) (by simp [Event.isNotice])

/-- A grammar of lists is closed under putting an entry in front. -/
structure ListRules (optional : Bool) (phrase : List Spelling → α → Prop)
    (body : List Spelling → List α → Prop) : Prop where
  none : body [] []
  separated {e f : List Spelling} {value : α} {values : List α} (first : phrase e value)
    (others : body f values) : body (e ++ fixed .semicolon :: f) (value :: values)
  joined {e f : List Spelling} {value : α} {values : List α} (first : phrase e value)
    (others : body f values) (joins : optional = true ∨ f = [] ∧ values = []) :
      body (e ++ f) (value :: values)

/-- Where the next token closes the list, nothing else is taken and no value given. -/
theorem entriesWithin_yields_close (fuel : Nat) {setting : Setting} {tokens : List Token}
    {t : Token} (seen : Sees setting tokens t) (isClose : t.kind = .braceClose) :
    YieldsFrom (entriesWithin list optional entry fuel) setting tokens
      fun events used values _ =>
      events = [] ∧ used = [t] ∧ values = [] := by
  cases fuel with
  | zero => exact YieldsFrom.look fun t _ => YieldsFrom.failAt t _
  | succ fuel =>
    refine YieldsFrom.look fun s same => ?_
    obtain rfl : t = s := seen.symm.trans same
    rw [if_pos isClose]
    exact YieldsFrom.take seen (by simp [isClose]) fun rest _ =>
      YieldsFrom.pure ⟨rfl, rfl, rfl⟩

/-- The entries up to the closing brace: their values were written there, and where
nothing was skipped they are a list of the grammar. -/
theorem entriesWithin_yields {body : List Spelling → List α → Prop}
    (rules : ListRules optional phrase body) (gives : GivesEntries entry phrase loose)
    (fuel : Nat) (setting : Setting) (tokens : List Token) :
    YieldsFrom (entriesWithin list optional entry fuel) setting tokens
      fun events used values _ =>
      Written loose used values ∧
      (Silent events → ∃ e, used.map Token.symbol = e ++ [fixed .braceClose] ∧
        body e values) := by
  induction fuel generalizing tokens with
  | zero => exact YieldsFrom.look fun t _ => YieldsFrom.failAt t _
  | succ fuel inductionHypothesis =>
    refine YieldsFrom.look fun t seen => YieldsFrom.ite (fun isClose => ?_) fun _ => ?_
    · refine YieldsFrom.take seen (by simp [isClose]) fun rest _ => YieldsFrom.pure ?_
      exact ⟨by
        simp [Written], fun _ => ⟨[], by simp [Token.symbol_fixed isClose rfl], rules.none⟩⟩
    refine YieldsFrom.ite (fun _ => YieldsFrom.failAt t _) fun _ => ?_
    refine YieldsFrom.bind (recovering_yields gives setting tokens) ?_
    rintro events used value left - ⟨written, exactly⟩
    by_cases closes : AtClose setting left
    · obtain ⟨c, sees, isClose⟩ := closes
      refine YieldsFrom.bind (entriesWithin_yields_close fuel sees isClose) ?_
      rintro _ _ _ rest - ⟨rfl, rfl, rfl⟩
      refine YieldsFrom.pure ⟨?_, fun silent => ?_⟩
      · simpa using written.mono (List.prefix_append used [c]).isInfix
      · obtain ⟨v, e, rfl, phrased, separated | ⟨rfl, -⟩⟩ :=
          exactly (silent_append.mp silent).1
        · exact ⟨_, by
            simp [separated, Token.symbol_fixed isClose rfl],
              rules.separated phrased rules.none⟩
        · exact ⟨_, by
            simp [Token.symbol_fixed isClose rfl],
              rules.joined phrased rules.none (.inr ⟨rfl, rfl⟩)⟩
    · refine YieldsFrom.bind (inductionHypothesis left) ?_
      rintro later more values rest - ⟨writtenLater, exactlyLater⟩
      refine YieldsFrom.pure ⟨?_, fun silent => ?_⟩
      · rw [List.append_nil]
        exact written.append writtenLater
      · obtain ⟨silentNow, silentLater⟩ := silent_append.mp silent
        obtain ⟨f, spelled, listed⟩ := exactlyLater (by simpa using silentLater)
        obtain ⟨v, e, rfl, phrased, separated | ⟨rfl, joins⟩⟩ := exactly silentNow
        · exact ⟨_, by simp [separated, spelled], rules.separated phrased listed⟩
        · exact ⟨_, by
            simp [spelled], rules.joined phrased listed (.inl (joins.resolve_right closes))⟩

/-- A list between braces. -/
theorem entries_yields {body : List Spelling → List α → Prop}
    (rules : ListRules optional phrase body)
    (gives : GivesEntries entry phrase loose) (setting : Setting) (tokens : List Token) :
    YieldsFrom (entries list optional entry) setting tokens fun events used values _ =>
      Written loose used values ∧ (Silent events → ∃ e, used.map Token.symbol = braced e ∧
      body e values) := by
  refine YieldsFrom.fixed .braceOpen (by decide) rfl fun o rest _ isOpen => ?_
  intro ends values left read
  obtain ⟨used, split, written, exactly⟩ :=
    entriesWithin_yields rules gives (rest.length + 1) setting rest ends values left read
  refine ⟨used, split, written.mono (List.suffix_cons o used).isInfix, fun silent => ?_⟩
  obtain ⟨e, spelled, listed⟩ := exactly silent
  exact ⟨e, by simp [isOpen, spelled, braced], listed⟩

end Turns

section Accepting

variable {entry : Parser α} {list : Text} {optional : Bool}
    {e before after rest : List Spelling} {value : α}

/-- What is accepted is not skipped. -/
theorem recovering_accepts {p : Parser α} (accepts : Accepts p before (· = value) after) :
    Accepts (recovering list p) before (· = some value) after := by
  intro setting tokens ends unlimited symbols
  obtain ⟨silent, _, left, read, rfl, leftSymbols⟩ :=
    accepts setting tokens ends unlimited symbols
  rw [recovering_read read]
  exact ⟨silent, some _, left, rfl, rfl, leftSymbols⟩

/-- An entry is accepted with the semicolon after it. -/
theorem separated_accepts
    (accepts : Accepts entry before (· = value) (fixed .semicolon :: rest)) :
    Accepts (separated list optional entry) before (· = value) rest := by
  refine Accepts.andThen accepts (Accepts.atKind fun _ _ _ => ?_)
  exact Accepts.skip fun _ _ => Accepts.pure rfl

/-- An entry is accepted without a semicolon before the closing brace, or where
none is needed. -/
theorem joined_accepts (accepts : Accepts entry before (· = value) rest)
    (other : nextKind rest ≠ .semicolon)
    (joins : optional = true ∨ nextKind rest = .braceClose) :
    Accepts (separated list optional entry) before (· = value) rest := by
  refine Accepts.andThen accepts (Accepts.bind Accepts.current fun t shown => ?_)
  have kind : t.kind = nextKind rest := shown.kind
  rw [if_neg (by rwa [kind]), if_pos (by simpa [kind] using joins.symm)]
  exact Accepts.pure rfl

/-- The closing brace ends a list. -/
theorem entriesWithin_accepts_close (fuel : Nat) :
    Accepts (entriesWithin list optional entry (fuel + 1)) (fixed .braceClose :: rest)
      (· = []) rest :=
  Accepts.atKind fun _ _ _ => Accepts.skip fun _ _ => Accepts.pure rfl

/-- The symbols start with one that neither closes a list nor ends the input. -/
def Starts (symbols : List Spelling) : Prop :=
  ∃ s others, symbols = s :: others ∧ s.1 ≠ .braceClose ∧ s.1 ≠ .endOfInput

/-- What starts so still does with more behind it. -/
theorem Starts.append (starts : Starts e) (rest : List Spelling) : Starts (e ++ rest) := by
  obtain ⟨s, others, rfl, noClose, noEnd⟩ := starts
  exact ⟨s, others ++ rest, rfl, noClose, noEnd⟩

/-- A name can start an entry. -/
theorem NamePhrase.starts {n : Spelling} {text : Text} (named : NamePhrase n text)
    (others : List Spelling) :
    Starts (n :: others) := by
  refine ⟨n, others, rfl, ?_⟩
  cases named with
  | word | string => exact ⟨nofun, nofun⟩
  | keyword listed => constructor <;> rintro rfl <;> exact absurd listed (by decide)

/-- An entry that is accepted goes in front of the entries after it. -/
theorem entriesWithin_accepts_more {fuel : Nat} {values : List α} (starts : Starts before)
    (first : Accepts (separated list optional entry) before (· = value) rest)
    (others : Accepts (entriesWithin list optional entry fuel) rest (· = values) after) :
    Accepts (entriesWithin list optional entry (fuel + 1)) before (· = value :: values)
      after := by
  obtain ⟨s, others, rfl, noClose, noEnd⟩ := starts
  refine Accepts.bind Accepts.current fun t shown => ?_
  have kind : t.kind = s.1 := shown.kind
  rw [if_neg (by rwa [kind]), if_neg (by rwa [kind])]
  exact Accepts.andThen (recovering_accepts first) (Accepts.andThen ‹_› (Accepts.pure rfl))

/-- What a list asks of its entries: each starts like one, and is accepted
where one ends. -/
structure AcceptsEntries (entry : Parser α) (phrase : List Spelling → α → Prop) : Prop where
  starts {e : List Spelling} {value : α} (phrased : phrase e value) : Starts e
  accepts {e rest : List Spelling} {value : α} (phrased : phrase e value)
    (ends : EndsEntry rest) :
    Accepts entry (e ++ rest) (· = value) rest

/-- A list with semicolons between its entries is accepted, with fuel for every token. -/
theorem entriesWithin_accepts {phrase : List Spelling → α → Prop}
    (entries : AcceptsEntries entry phrase) {values : List α}
    (listed : ListPhrase phrase e values) {fuel : Nat} (enough : e.length < fuel) :
    Accepts (entriesWithin list false entry fuel) (e ++ fixed .braceClose :: rest)
      (· = values) rest := by
  induction listed generalizing fuel with
  | none =>
    obtain ⟨fuel, rfl⟩ :=
      Nat.exists_eq_add_one_of_ne_zero (Nat.ne_of_gt (Nat.zero_lt_of_lt enough))
    exact entriesWithin_accepts_close fuel
  | @last e value only =>
    have starts := entries.starts only
    obtain ⟨fuel, rfl⟩ : ∃ n, fuel = n + 2 := by
      obtain ⟨s, others, rfl, -⟩ := starts
      rw [List.length_cons] at enough
      exact ⟨fuel - 2, by omega⟩
    refine entriesWithin_accepts_more (starts.append _) ?_ (entriesWithin_accepts_close fuel)
    exact joined_accepts (entries.accepts only (.inr rfl)) (by simp [nextKind, fixed])
      (.inr rfl)
  | @more e f value values first others inductionHypothesis =>
    obtain ⟨fuel, rfl⟩ :=
      Nat.exists_eq_add_one_of_ne_zero (Nat.ne_of_gt (Nat.zero_lt_of_lt enough))
    have less : f.length < fuel := by
      simp only [List.length_append, List.length_cons] at enough
      omega
    rw [List.append_assoc, List.cons_append]
    refine entriesWithin_accepts_more ((entries.starts first).append _) ?_
      (inductionHypothesis less)
    exact separated_accepts (entries.accepts first (.inl rfl))

/-- A list is accepted between braces when its entries are with any fuel
that is enough. -/
theorem entries_accepts {values : List α} {e : List Spelling}
    (within : ∀ fuel, e.length < fuel →
      Accepts (entriesWithin list optional entry fuel) (e ++ fixed .braceClose :: rest)
    (· = values) rest) :
    Accepts (entries list optional entry) (braced e ++ rest) (· = values) rest := by
  simp only [braced, List.cons_append, List.append_assoc, List.nil_append]
  refine Accepts.bind (Accepts.expect rfl) fun _ _ => ?_
  refine Accepts.ofLength (p := fun length =>
    entriesWithin list optional entry (length + 1)) ?_
  exact within _ (by simp only [List.length_append]; omega)

end Accepting

end Persona.Grammar
